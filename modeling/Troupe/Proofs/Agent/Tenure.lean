import Troupe.Proofs.Agent.Parking

/-!
# An agent in office

An agent at its berth, with everything that others can do to it taken apart into steps:
sends, wakes, requests to end (`AskCall`: ask, close the mailbox, wake), requests to finish,
the register that is cleared and the scheduler that goes away. They mix with the steps of
the agent's turns and with those of the worker that has its task.

* `ask_alone` — a request to end that nobody interferes with;
* `paced_step` — what a step of a turn does to the agent's office;
* `Tenure.work_cases` — what a step of the worker can be.
-/

namespace Troupe

open Header.Traffic (replace)

open Berth (rouse)

/-! ## Programs that keep to something -/

/-- Every change that the program makes is one of these. -/
def Program.Within {σ μ α : Type} (R : σ → σ → Prop) : Program σ μ α → Prop
  | .answer _ => True
  | .change f next => (∀ s, R s (f s)) ∧ ∀ s, Within R (next s)
  | .receive next => ∀ e, Within R (next e)

/-- Every change that the agent makes is one of these. -/
structure Behavior.Within {σ μ : Type} (R : σ → σ → Prop) (b : Behavior σ μ) : Prop where
  resume : b.resume.Within R
  onStop : b.onStop.Within R
  onRestart : ∀ s, R s (b.onRestart s).1

/-- What keeps to a narrower relation keeps to a wider one. -/
theorem Program.Within.mono {σ μ α : Type} {R R' : σ → σ → Prop} (hle : ∀ s s', R s s' → R' s s')
    {p : Program σ μ α} (h : p.Within R) : p.Within R' := by
  induction p with
  | answer a => trivial
  | change f next ih => exact ⟨fun s => hle _ _ (h.1 s), fun s => ih s (h.2 s)⟩
  | receive next ih => exact fun e => ih e (h e)

theorem Behavior.Within.mono {σ μ : Type} {R R' : σ → σ → Prop} {b : Behavior σ μ}
    (h : b.Within R) (hle : ∀ s s', R s s' → R' s s') : b.Within R' :=
  ⟨h.resume.mono hle, h.onStop.mono hle, fun s => hle _ _ (h.onRestart s)⟩

/-- What is left of the program that the agent is in the middle of. -/
def Point.Within {σ μ : Type} (R : σ → σ → Prop) : Point σ μ → Prop
  | .running _ rest => rest.Within R
  | .stopping rest => rest.Within R
  | _ => True

/-! ## Offices -/

/-- A request to end, in progress. -/
inductive AskCall where
  /-- About to look the agent up. -/
  | looking
  /-- About to ask the agent. -/
  | asking
  /-- Was the first to ask. -/
  | closing (call : Mailbox.CloseCall)
  /-- Has closed the mailbox: about to wake the agent. -/
  | waking (call : Header.WakeCall Unit)

/-- Whether a request to end is before the point where it asks. -/
def AskCall.isEarly : AskCall → Bool
  | looking | asking => true
  | _ => false

/-- An agent's berth, with the requests to end it and what is kept about it. -/
structure Office (μ ε : Type) extends Berth μ ε where
  asks : List AskCall
  isRegistered : Bool
  /-- How many failures were counted. -/
  failed : Nat
  report : Option FailureReport

/-- What can be done to an agent from outside. A call in progress is named by its place among
its like. -/
inductive Outside (μ : Type) where
  | callSend (e : Envelope μ)
  | send (index : Nat)
  | callWake
  | wake (index : Nat)
  | callAsk
  | ask (index : Nat)
  | callFinish
  | finish (index : Nat)
  /-- The register is cleared. -/
  | strike
  /-- The scheduler goes away. -/
  | fall

variable {μ ε : Type}

/-- A step of a request to end: the call goes on or returns. -/
def AskCall.step (p : Office μ ε) : AskCall → Office μ ε × Option AskCall
  | .looking => (p, if p.isRegistered then some .asking else none)
  | .asking =>
    let (header, first) := p.traffic.header.requestEnd
    ({ p with traffic := { p.traffic with header } },
      if first then some (.closing .flagging) else none)
  | .closing call =>
    let o := call.step p.mailbox
    ({ p with mailbox := o.state, traffic := o.effects.foldl rouse p.traffic },
      match o.answer with
      | .inl after => some (.closing after)
      | .inr _ => some (.waking .loading))
  | .waking call =>
    let step := call.step p.traffic.header p.traffic.isUp
    ({ p with traffic := { p.traffic with
        header := step.header
        queue := p.traffic.queue ++ step.pushed.toList } },
      step.next.map .waking)

namespace Office

def isAsked (p : Office μ ε) : Bool := p.traffic.header.isTerminating

def phase (p : Office μ ε) : Phase := p.traffic.header.phase

/-- Something happens at the header. -/
def relay (p : Office μ ε) (action : Header.Traffic.Action) : Office μ ε :=
  { p with traffic := p.traffic.next action }

def act (p : Office μ ε) : Outside μ → Office μ ε
  | .callSend e => { p with sends := p.sends ++ [.checking e] }
  | .send index =>
    match p.sends[index]? with
    | none => p
    | some call =>
      let o := call.step p.mailbox
      { p with
        mailbox := o.state
        sends := replace p.sends index o.answer.getLeft?
        traffic := o.effects.foldl rouse p.traffic }
  | .callWake => p.relay .callWake
  | .wake index => p.relay (.wake index)
  | .callAsk => { p with asks := p.asks ++ [.looking] }
  | .ask index =>
    match p.asks[index]? with
    | none => p
    | some call => { (call.step p).1 with asks := replace p.asks index (call.step p).2 }
  | .callFinish => p.relay .callFinish
  | .finish index => p.relay (.finish index)
  | .strike => { p with isRegistered := false }
  | .fall => p.relay .fall

/-- What comes of actions from outside, one after another. -/
def acts (p : Office μ ε) (actions : List (Outside μ)) : Office μ ε := actions.foldl act p

/-- What the turn of an agent finds around it. -/
def around : Surroundings (Office μ ε) μ where
  isTerminating p := p.isAsked
  isEmpty p := p.mailbox.isEmpty
  dequeue p := ({ p with mailbox := p.mailbox.dequeue.state }, p.mailbox.dequeue.answer)
  register p := { p with mailbox := p.mailbox.register () }
  meanwhile p := p
  countFailure p := { p with failed := p.failed + 1 }
  keepReport report p := { p with report := some report }
  complete p :=
    { p with
      mailbox := p.mailbox.close.state
      traffic := p.mailbox.close.effects.foldl rouse p.traffic
      isRegistered := false }

/-- An agent at this office; its waker is the only one in its mailbox. -/
def resident (behavior : Behavior (Office μ ε) μ) (policy : Policy) (id : AgentId) (quantum : Nat) :
    Resident (Office μ ε) μ :=
  ⟨behavior, around, policy, id, quantum⟩

/-- What an agent can change when it is resumed: what it knows itself, and what anybody can
change. -/
def Touches (p p' : Office μ ε) : Prop :=
  ∃ (actions : List (Outside μ)) (own : ε), p' = { p.acts actions with own }

/-! ## Requests to end without interference -/

/-- What wakers are called for becomes wakes in progress. -/
theorem rouse_foldl (effects : List (Effect Unit)) (t : Header.Traffic Unit) :
    ∃ more, effects.foldl rouse t = { t with wakes := t.wakes ++ more } := by
  -- by induction on the effects: a wake adds a call, a note on pressure nothing
  induction effects generalizing t with
  | nil => exact ⟨[], by simp⟩
  | cons effect rest ih =>
      obtain ⟨more, hmore⟩ := ih (rouse t effect)
      rw [List.foldl_cons, hmore]
      cases effect with
      | wake w => exact ⟨.loading :: more, by simp [rouse, Header.Traffic.next]⟩
      | pressure event => exact ⟨more, rfl⟩

theorem acts_append (p : Office μ ε) (pre post : List (Outside μ)) :
    p.acts (pre ++ post) = (p.acts pre).acts post :=
  List.foldl_append

/-- The first request to end closes the mailbox. -/
theorem asking_alone (p : Office μ ε) (hregistered : p.isRegistered = true)
    (hfirst : p.isAsked = false) :
    p.acts (.callAsk :: List.replicate 4 (.ask p.asks.length)) =
      { p with
        mailbox := p.mailbox.close.state
        traffic := p.mailbox.close.effects.foldl rouse
          { p.traffic with header := p.traffic.header.requestEnd.1 }
        asks := p.asks ++ [.waking .loading] } := by
  have hrequest : p.traffic.header.requestEnd.2 = true := by
    simpa [Header.requestEnd, isAsked] using hfirst
  simp [acts, act, List.replicate, AskCall.step, hregistered, hrequest, Mailbox.CloseCall.step,
    Mailbox.close]

/-- Then it wakes the agent. -/
theorem waking_alone (p : Office μ ε) {others : List AskCall} (hup : p.traffic.isUp = true)
    (hasks : p.asks = others ++ [.waking .loading]) :
    ∃ steps, p.acts (List.replicate steps (.ask others.length)) =
      { p with
        traffic := { p.traffic with
          header := p.traffic.header.wake.1
          queue := p.traffic.queue ++ p.traffic.header.wake.2.toList }
        asks := others } := by
  obtain ⟨⟨mailbox, sends, ⟨⟨phase, slot, asked⟩, queue, isUp, runner, wakes, finishes⟩, own⟩,
    asks, isRegistered, failed, report⟩ := p
  obtain rfl : isUp = true := hup
  obtain rfl : asks = others ++ [.waking .loading] := hasks
  -- how many steps the wake has is told by the phase it finds
  cases phase with
  | idle =>
      cases slot with
      | none =>
          exact ⟨3, by simp [List.replicate, acts, act, AskCall.step, Header.WakeCall.step,
            Header.WakeCall.seeing, Header.wake]⟩
      | some task =>
          exact ⟨4, by simp [List.replicate, acts, act, AskCall.step, Header.WakeCall.step,
            Header.WakeCall.seeing, Header.wake]⟩
  | running =>
      exact ⟨2, by simp [List.replicate, acts, act, AskCall.step, Header.WakeCall.step,
        Header.WakeCall.seeing, Header.wake]⟩
  | _ =>
      exact ⟨1, by simp [List.replicate, acts, act, AskCall.step, Header.WakeCall.step,
        Header.WakeCall.seeing, Header.wake]⟩

/-- A request to end from its first step to its last, if it is the first. -/
theorem ask_alone (p : Office μ ε) (hup : p.traffic.isUp = true)
    (hregistered : p.isRegistered = true) (hfirst : p.isAsked = false) :
    ∃ steps, p.acts (.callAsk :: List.replicate steps (.ask p.asks.length)) =
      { p with
        mailbox := p.mailbox.close.state
        traffic :=
          let asked := p.mailbox.close.effects.foldl rouse
            { p.traffic with header := p.traffic.header.requestEnd.1 }
          { asked with
            header := asked.header.wake.1
            queue := asked.queue ++ asked.header.wake.2.toList } } := by
  have hasking := p.asking_alone hregistered hfirst
  have hstill :
      (p.acts (.callAsk :: List.replicate 4 (.ask p.asks.length))).traffic.isUp = true := by
    rw [hasking]
    obtain ⟨more, hmore⟩ := rouse_foldl p.mailbox.close.effects
      { p.traffic with header := p.traffic.header.requestEnd.1 }
    rw [hmore]
    exact hup
  have hasks : (p.acts (.callAsk :: List.replicate 4 (.ask p.asks.length))).asks =
      p.asks ++ [.waking .loading] := by
    rw [hasking]
  obtain ⟨steps, hwaking⟩ := waking_alone _ hstill hasks
  refine ⟨4 + steps, ?_⟩
  rw [List.replicate_add, ← List.cons_append, acts_append, hwaking, hasking]

end Office

/-! ## Steps of a turn -/

/-- The agent is about to be put away, or on the way there. -/
def Point.isStaying {σ μ : Type} : Point σ μ → Bool
  | .waiting _ | .enlisting _ | .enlisted _ | .ended .wait => true
  | _ => false

/-- `R` holds of everything that a turn does to an office before its end, if what the agent does
itself is among `T`. -/
structure Office.Covers (R T : Office μ ε → Office μ ε → Prop) : Prop where
  refl : ∀ p, R p p
  trans : ∀ {p q r}, R p q → R q r → R p r
  own : ∀ {p q}, T p q → R p q
  dequeue : ∀ p : Office μ ε, R p { p with mailbox := p.mailbox.dequeue.state }
  register : ∀ p : Office μ ε, R p { p with mailbox := p.mailbox.register () }
  count : ∀ p : Office μ ε, R p { p with failed := p.failed + 1 }
  report : ∀ (p : Office μ ε) (report : FailureReport), R p { p with report := some report }

/-- What a step of a turn leaves behind. -/
structure Paced (R T : Office μ ε → Office μ ε → Prop) (c c' : Pace (Office μ ε) μ) : Prop where
  /-- The agent is completed by the last step of its last turn and by no other. -/
  world : ∃ p, R c.world p ∧
    (c'.world = p ∧ c'.point ≠ .ended .done ∨
      c'.world = Office.around.complete p ∧ c'.point = .ended .done)
  point : c'.point.Within T
  staying : c.world.isAsked = true → c.point.isStaying = false → c'.point.isStaying = false

section Turn

variable {R T : Office μ ε → Office μ ε → Prop} (hcovers : Office.Covers R T)
  {behavior : Behavior (Office μ ε) μ} {c c' : Pace (Office μ ε) μ}
  (policy : Policy) (id : AgentId) (quantum : Nat)

theorem paced_complete {p : Office μ ε} (hworld : R c.world p) :
    Paced R T c ((Office.resident behavior policy id quantum).complete { c with world := p }) :=
  ⟨⟨p, hworld, .inr ⟨rfl, rfl⟩⟩, trivial, fun _ _ => rfl⟩

include hcovers

/-- A step that changes nothing but the agent's own books. -/
theorem Paced.of_eq (hworld : c'.world = c.world) (hnot : c'.point ≠ .ended .done)
    (hpoint : c'.point.Within T)
    (hstaying : c.world.isAsked = true → c.point.isStaying = false → c'.point.isStaying = false) :
    Paced R T c c' :=
  ⟨⟨c.world, hcovers.refl c.world, .inl ⟨hworld, hnot⟩⟩, hpoint, hstaying⟩

/-- A receive is within the turn. -/
theorem paced_receive (next : Option (Envelope μ) → Point (Office μ ε) μ)
    (hnot : ∀ e, next e ≠ .ended .done) (hpoint : ∀ e, (next e).Within T)
    (hstaying : ∀ e, (next e).isStaying = false) :
    Paced R T c ((Office.resident behavior policy id quantum).receive c next) := by
  unfold Resident.receive
  -- refused, the receive changes the books alone
  by_cases hzero : c.books.budget = 0
  · rw [if_pos hzero]
    exact .of_eq hcovers rfl (hnot none) (hpoint none) fun _ _ => hstaying none
  · rw [if_neg hzero]
    have hdequeued := hcovers.dequeue c.world
    simp only [Office.resident, Office.around]
    cases c.world.mailbox.dequeue.answer with
    | none => exact ⟨⟨_, hdequeued, .inl ⟨rfl, hnot none⟩⟩, hpoint none, fun _ _ => hstaying none⟩
    | some e =>
        exact ⟨⟨_, hdequeued, .inl ⟨rfl, hnot (some e)⟩⟩, hpoint (some e),
          fun _ _ => hstaying (some e)⟩

theorem paced_stop (hbehavior : behavior.Within T) :
    Paced R T c ((Office.resident behavior policy id quantum).stop c) :=
  .of_eq hcovers rfl nofun hbehavior.onStop fun _ _ => rfl

/-- However a failure is met, that is within the turn, or ends it. -/
theorem paced_fail (hbehavior : behavior.Within T) (reason : String) :
    Paced R T c ((Office.resident behavior policy id quantum).fail c reason) := by
  have hcounted : R c.world (Office.around.countFailure c.world) := hcovers.count c.world
  have hrestarted : ∀ p answer, behavior.onRestart (Office.around.countFailure c.world) =
      (p, answer) → R c.world p := by
    intro p answer hrestart
    have hown := hbehavior.onRestart (Office.around.countFailure c.world)
    rw [hrestart] at hown
    exact hcovers.trans hcounted (hcovers.own hown)
  have hfailed := (Office.resident behavior policy id quantum).failed c reason
  generalize (Office.resident behavior policy id quantum).fail c reason = after at hfailed
  -- stopped or not started again, the agent is completed; started again, it goes on
  cases hfailed with
  | stopped _ =>
      have hstopped := hcovers.trans hcounted (hcovers.report _ ⟨id, reason, c.restarts⟩)
      exact ⟨⟨_, hstopped, .inr ⟨rfl, rfl⟩⟩, trivial, fun _ _ => rfl⟩
  | restarted _ _ p hrestart =>
      exact ⟨⟨p, hrestarted p _ hrestart, .inl ⟨rfl, nofun⟩⟩, trivial, fun _ _ => rfl⟩
  | broken _ _ p why hrestart =>
      have hbroken := hcovers.trans (hrestarted p _ hrestart)
        (hcovers.report _ ⟨id, reason, c.restarts⟩)
      exact ⟨⟨_, hbroken, .inr ⟨rfl, rfl⟩⟩, trivial, fun _ _ => rfl⟩

/-- Every step of a turn is within the turn, or ends it. -/
theorem paced_step (hbehavior : behavior.Within T) (hpoint : c.point.Within T)
    (hon : ∀ ending, c.point ≠ .ended ending) :
    Paced R T c ((Office.resident behavior policy id quantum).step c) := by
  obtain ⟨p, books, restarts, point, history⟩ := c
  -- by where the agent is; only waiting depends on whether it was asked
  cases point with
  | resuming left =>
      cases left with
      | zero => exact .of_eq hcovers rfl nofun trivial fun _ _ => rfl
      | succ left =>
          rw [Resident.step_resuming]
          split
          · exact paced_stop hcovers policy id quantum hbehavior
          · exact .of_eq hcovers rfl nofun hbehavior.resume fun _ _ => rfl
  | running left rest =>
      cases rest with
      | answer answer => exact .of_eq hcovers rfl nofun trivial fun _ _ => rfl
      | change f next =>
          exact ⟨⟨f p, hcovers.own (hpoint.1 p), .inl ⟨rfl, nofun⟩⟩, hpoint.2 _, fun _ _ => rfl⟩
      | receive next =>
          exact paced_receive hcovers policy id quantum (fun e => .running left (next e))
            (fun _ => nofun) hpoint fun _ => rfl
  | answered left answer =>
      cases answer with
      | error reason => exact paced_fail hcovers policy id quantum hbehavior reason
      | ok answer =>
          cases answer with
          | yield => exact .of_eq hcovers rfl nofun trivial fun _ _ => rfl
          | done => exact paced_complete policy id quantum (hcovers.refl p)
          | wait =>
              rw [Resident.step_wait]
              split
              · exact paced_stop hcovers policy id quantum hbehavior
              · next hnot =>
                  exact .of_eq hcovers rfl nofun trivial fun hasked _ => absurd hasked hnot
  | waiting left =>
      rw [Resident.step_waiting]
      split
      · exact .of_eq hcovers rfl nofun trivial fun _ _ => rfl
      · exact .of_eq hcovers rfl nofun trivial fun _ h => nomatch h
  | enlisting left =>
      exact ⟨⟨_, hcovers.register p, .inl ⟨rfl, nofun⟩⟩, trivial, fun _ h => nomatch h⟩
  | enlisted left =>
      rw [Resident.step_enlisted]
      split
      · exact .of_eq hcovers rfl nofun trivial fun _ _ => rfl
      · exact .of_eq hcovers rfl nofun trivial fun _ h => nomatch h
  | stopping rest =>
      cases rest with
      | answer answer => exact paced_complete policy id quantum (hcovers.refl p)
      | change f next =>
          exact ⟨⟨f p, hcovers.own (hpoint.1 p), .inl ⟨rfl, nofun⟩⟩, hpoint.2 _, fun _ _ => rfl⟩
      | receive next =>
          exact paced_receive hcovers policy id quantum (fun e => .stopping (next e))
            (fun _ => nofun) hpoint fun _ => rfl
  | ended ending => exact absurd rfl (hon ending)

end Turn

/-! ## Tenures -/

/-- An agent and its office, in the middle of a turn or between two. -/
structure Tenure (μ ε : Type) where
  pace : Pace (Office μ ε) μ
  /-- Whether the agent had been asked to end when its present turn began, or its last. -/
  wasAsked : Bool

namespace Tenure

def office (s : Tenure μ ε) : Office μ ε := s.pace.world

def runner (s : Tenure μ ε) : Header.Runner Unit := s.office.traffic.runner

def state (s : Tenure μ ε) : AgentState := s.office.traffic.header.state

/-- A new agent with an empty mailbox, whose task is queued. -/
def start (marks : Watermarks) (own : ε) : Tenure μ ε :=
  ⟨⟨⟨⟨.ofMarks marks, [], .start (), own⟩, [], true, 0, none⟩, .opened 0, 0, .ended .yield, []⟩,
    false⟩

inductive Action (μ : Type) where
  | outside (action : Outside μ)
  /-- A worker takes the task out of a run queue. -/
  | pick
  /-- The worker that has the task makes a step. -/
  | work

/-- Changes the office. -/
def alter (s : Tenure μ ε) (f : Office μ ε → Office μ ε) : Tenure μ ε :=
  { s with pace := { s.pace with world := f s.office } }

/-- A worker that has the task makes a step. -/
def work (a : Resident (Office μ ε) μ) (s : Tenure μ ε) : Tenure μ ε :=
  match s.runner with
  | .running _ =>
    match s.pace.point with
    | .ended ending => s.alter (·.relay (.run ending))
    | _ => { s with pace := a.step s.pace }
  | .picked _ =>
    let begun := s.alter (·.relay (.run .yield))
    -- a turn begins, unless the agent is done
    if s.office.traffic.header.beginRun.2 then
      { pace := { begun.pace with books := .opened a.quantum, point := .resuming a.quantum }
        wasAsked := s.office.isAsked }
    else begun
  | _ => s.alter (·.relay (.run .yield))

def next (a : Resident (Office μ ε) μ) (s : Tenure μ ε) : Action μ → Tenure μ ε
  | .outside action => s.alter (·.act action)
  | .pick => s.alter (·.relay .pick)
  | .work => s.work a

/-- What comes of actions one after another. -/
def run (a : Resident (Office μ ε) μ) (s : Tenure μ ε) (actions : List (Action μ)) : Tenure μ ε :=
  actions.foldl (next a) s

/-- What others do, one after another. -/
def meanwhile (s : Tenure μ ε) (actions : List (Outside μ)) : Tenure μ ε :=
  s.alter (·.acts actions)

/-- What a step of the worker can be. -/
inductive Work (a : Resident (Office μ ε) μ) (s : Tenure μ ε) : Tenure μ ε → Prop where
  /-- A step of the turn. -/
  | turn (task : Unit) (hrunner : s.runner = .running task)
      (hon : ∀ ending, s.pace.point ≠ .ended ending) : Work a s { s with pace := a.step s.pace }
  /-- The turn is over. -/
  | leave (task : Unit) (ending : TurnEnd) (hrunner : s.runner = .running task)
      (hover : s.pace.point = .ended ending) : Work a s (s.alter (·.relay (.run ending)))
  | begin (task : Unit) (hrunner : s.runner = .picked task)
      (hphase : s.office.traffic.header.phase = .scheduled) :
      Work a s
        ⟨{ (s.alter (·.relay (.run .yield))).pace with
            books := .opened a.quantum
            point := .resuming a.quantum },
          s.office.isAsked⟩
  /-- A step between two turns. -/
  | between (hrunner : ∀ task, s.runner ≠ .running task)
      (hphase : ∀ task, s.runner = .picked task → s.office.traffic.header.phase ≠ .scheduled) :
      Work a s (s.alter (·.relay (.run .yield)))

/-- A step of the worker is one of the four. -/
theorem work_cases (a : Resident (Office μ ε) μ) (s : Tenure μ ε) : Work a s (s.work a) := by
  unfold work
  split
  · next task hrunner =>
      split
      · next ending hover => exact .leave task ending hrunner hover
      · next hon => exact .turn task hrunner hon
  · next task hrunner =>
      by_cases hphase : s.office.traffic.header.phase = .scheduled
      · have hbegins : s.office.traffic.header.beginRun.2 = true := by
          simp [Header.beginRun, hphase]
        rw [if_pos hbegins]
        exact .begin task hrunner hphase
      · have hbegins : ¬ s.office.traffic.header.beginRun.2 = true := by
          simp [Header.beginRun]
        rw [if_neg hbegins]
        refine .between ?_ fun _ _ => hphase
        intro other hother
        cases hrunner.symm.trans hother
  · next hrunning hpicked =>
      exact .between hrunning fun task h => absurd h (hpicked task)

end Tenure

end Troupe
