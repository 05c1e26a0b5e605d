import Mathlib.Logic.Function.Iterate
import Mathlib.Logic.Relation
import Troupe.Agent.Turn

/-!
# Turns step by step

Others go on while an agent has its turn. So the turn is taken apart into steps, each of
which looks at the world or changes it once, and what happens to the agent's messages is
written down on the way.

* `leadsTo_run` — a program comes to its answer step by step;
* `leadsTo_turn` — left alone, the steps of a turn come to what `Behavior.turn` says;
* `Inevitable` — where the steps of an agent lead, whatever others do between them.
-/

namespace Troupe

/-- What happens to the messages of an agent and to the agent itself. -/
inductive Event (μ : Type) where
  /-- The mailbox took a message in. -/
  | accepted (e : Envelope μ)
  /-- A receive handed a message out. -/
  | received (e : Envelope μ)
  /-- The agent was given its last word. -/
  | lastWord
  /-- The mailbox was closed for good, and the agent taken off the register. -/
  | left

/-! ## Histories -/

namespace Event

variable {μ : Type}

def accepted? : Event μ → Option (Envelope μ)
  | .accepted e => some e
  | _ => none

def received? : Event μ → Option (Envelope μ)
  | .received e => some e
  | _ => none

def isLastWord : Event μ → Bool
  | .lastWord => true
  | _ => false

end Event

namespace History

variable {μ : Type}

/-- What the mailbox has taken in. -/
def accepted (h : List (Event μ)) : List (Envelope μ) := h.filterMap Event.accepted?

/-- What the agent has been handed out. -/
def received (h : List (Event μ)) : List (Envelope μ) := h.filterMap Event.received?

/-- What the agent had been handed out when it was given its last word. -/
def heard (h : List (Event μ)) : List (Envelope μ) :=
  received (h.takeWhile fun event => !event.isLastWord)

theorem received_append (h h' : List (Event μ)) : received (h ++ h') = received h ++ received h' :=
  List.filterMap_append

theorem accepted_append (h h' : List (Event μ)) : accepted (h ++ h') = accepted h ++ accepted h' :=
  List.filterMap_append

@[simp] theorem accepted_snoc_accepted (h : List (Event μ)) (e : Envelope μ) :
    accepted (h ++ [.accepted e]) = accepted h ++ [e] :=
  accepted_append h [.accepted e]

@[simp] theorem received_snoc_accepted (h : List (Event μ)) (e : Envelope μ) :
    received (h ++ [.accepted e]) = received h :=
  (received_append h [.accepted e]).trans (List.append_nil _)

@[simp] theorem accepted_snoc_received (h : List (Event μ)) (e : Envelope μ) :
    accepted (h ++ [.received e]) = accepted h :=
  (accepted_append h [.received e]).trans (List.append_nil _)

@[simp] theorem received_snoc_received (h : List (Event μ)) (e : Envelope μ) :
    received (h ++ [.received e]) = received h ++ [e] :=
  received_append h [.received e]

theorem received_map_received (es : List (Envelope μ)) : received (es.map .received) = es := by
  induction es with
  | nil => rfl
  | cons e rest ih => exact congrArg (e :: ·) ih

theorem accepted_map_received (es : List (Envelope μ)) : accepted (es.map .received) = [] := by
  induction es with
  | nil => rfl
  | cons e rest ih => exact ih

/-- The agent has not been given its last word. -/
def Unsaid (h : List (Event μ)) : Prop := ∀ event ∈ h, event.isLastWord = false

theorem Unsaid.append {h h' : List (Event μ)} (hh : Unsaid h) (hh' : Unsaid h') :
    Unsaid (h ++ h') := by
  intro event hevent
  rcases List.mem_append.mp hevent with hold | hnew
  · exact hh event hold
  · exact hh' event hnew

theorem unsaid_singleton {event : Event μ} (h : event.isLastWord = false) : Unsaid [event] := by
  intro other hother
  rw [List.mem_singleton.mp hother]
  exact h

theorem unsaid_map_received (es : List (Envelope μ)) : Unsaid (es.map .received) := by
  intro event hevent
  obtain ⟨e, -, rfl⟩ := List.mem_map.mp hevent
  rfl

/-- Nothing that comes after the last word is heard. -/
theorem heard_append_lastWord {h : List (Event μ)} (hnot : Unsaid h) (after : List (Event μ)) :
    heard (h ++ .lastWord :: after) = received h := by
  -- nothing before it is a last word, so the walk stops here
  have htake : (h ++ .lastWord :: after).takeWhile (fun event => !event.isLastWord) = h := by
    rw [List.takeWhile_append_of_pos (fun event hevent => by rw [hnot event hevent]; rfl)]
    exact List.append_nil h
  rw [heard, htake]

end History

/-! ## Paces -/

/-- Where an agent is in its turn; `left` counts the resumes that may still begin. -/
inductive Point (σ μ : Type) where
  | resuming (left : Nat)
  | running (left : Nat) (rest : Program σ μ (Except String Step))
  | answered (left : Nat) (answer : Except String Step)
  /-- It wants to wait, and nobody asked it to end. -/
  | waiting (left : Nat)
  /-- It has the budget to wait for more messages. -/
  | enlisting (left : Nat)
  /-- Its next message will wake it. -/
  | enlisted (left : Nat)
  | stopping (rest : Program σ μ (Except String Unit))
  | ended (ending : TurnEnd)

/-- The state of an agent and of the world around it between two steps. -/
structure Pace (σ μ : Type) where
  world : σ
  books : TurnBooks
  restarts : Nat
  point : Point σ μ
  history : List (Event μ)

/-- An agent with its place in the world. -/
structure Resident (σ μ : Type) where
  behavior : Behavior σ μ
  around : Surroundings σ μ
  policy : Policy
  id : AgentId
  quantum : Nat

namespace Resident

variable {σ μ : Type} (a : Resident σ μ)

/-! ## Steps -/

/-- Receives a message within the budget of the turn. -/
def receive (c : Pace σ μ) (next : Option (Envelope μ) → Point σ μ) : Pace σ μ :=
  if c.books.budget = 0 then
    { c with books := { c.books with exhausted := true }, point := next none }
  else
    match a.around.dequeue c.world with
    | (s, some e) =>
      { c with
        world := s
        books := { c.books with
          budget := c.books.budget - 1
          received := c.books.received + 1 }
        point := next (some e)
        history := c.history ++ [.received e] }
    | (s, none) =>
      { c with world := s, books := { c.books with drained := true }, point := next none }

/-- Gives the agent its last word. -/
def stop (c : Pace σ μ) : Pace σ μ :=
  { c with point := .stopping a.behavior.onStop, history := c.history ++ [.lastWord] }

/-- Completes the agent. -/
def complete (c : Pace σ μ) : Pace σ μ :=
  { c with
    world := a.around.complete c.world
    point := .ended .done
    history := c.history ++ [.left] }

/-- Meets a failure. -/
def fail (c : Pace σ μ) (reason : String) : Pace σ μ :=
  let r := a.behavior.fail a.around a.policy a.id reason c.world c.books c.restarts
  { c with
    world := r.world
    books := r.books
    restarts := r.restarts
    point := .ended r.ending
    history := if r.ending = .done then c.history ++ [.left] else c.history }

/-- The next step of a turn. -/
def step (c : Pace σ μ) : Pace σ μ :=
  match c.point with
  | .resuming 0 => { c with point := .ended .yield }
  | .resuming (left + 1) =>
    let c := { c with world := a.around.meanwhile c.world }
    if a.around.isTerminating c.world && a.around.isEmpty c.world then a.stop c
    else { c with
      books := { c.books with drained := false }
      point := .running left a.behavior.resume }
  | .running left (.answer answer) => { c with point := .answered left answer }
  | .running left (.change f next) =>
    { c with world := f c.world, point := .running left (next (f c.world)) }
  | .running left (.receive next) => a.receive c fun e => .running left (next e)
  | .answered left answer =>
    let c := { c with world := a.around.meanwhile c.world }
    match answer with
    | .ok .yield => { c with point := .ended .yield }
    | .ok .done => a.complete c
    | .error reason => a.fail c reason
    | .ok .wait =>
      if a.around.isTerminating c.world then a.stop c else { c with point := .waiting left }
  | .waiting left =>
    if c.books.exhausted && !a.around.isEmpty c.world then { c with point := .ended .yield }
    else { c with point := .enlisting left }
  | .enlisting left => { c with world := a.around.register c.world, point := .enlisted left }
  | .enlisted left =>
    let c := { c with world := a.around.meanwhile c.world }
    if c.books.drained && !a.around.isEmpty c.world then { c with point := .resuming left }
    else { c with point := .ended .wait }
  | .stopping (.answer _) => a.complete c
  | .stopping (.change f next) =>
    { c with world := f c.world, point := .stopping (next (f c.world)) }
  | .stopping (.receive next) => a.receive c fun e => .stopping (next e)
  | .ended _ => c

/-- The next step of an agent, which begins a new turn when the last is over. -/
def advance (c : Pace σ μ) : Pace σ μ :=
  match c.point with
  | .ended .done => c
  | .ended _ => { c with books := .opened a.quantum, point := .resuming a.quantum }
  | _ => a.step c

section Looks

/-! Where a step depends on what the agent sees when it looks around. -/

variable (s : σ) (t : TurnBooks) (restarts left : Nat) (h : List (Event μ))

theorem step_resuming : a.step ⟨s, t, restarts, .resuming (left + 1), h⟩ =
    if a.around.isTerminating (a.around.meanwhile s) && a.around.isEmpty (a.around.meanwhile s) then
      a.stop ⟨a.around.meanwhile s, t, restarts, .resuming (left + 1), h⟩
    else ⟨a.around.meanwhile s, { t with drained := false }, restarts,
      .running left a.behavior.resume, h⟩ := rfl

theorem step_wait : a.step ⟨s, t, restarts, .answered left (.ok .wait), h⟩ =
    if a.around.isTerminating (a.around.meanwhile s) then
      a.stop ⟨a.around.meanwhile s, t, restarts, .answered left (.ok .wait), h⟩
    else ⟨a.around.meanwhile s, t, restarts, .waiting left, h⟩ := rfl

theorem step_waiting : a.step ⟨s, t, restarts, .waiting left, h⟩ =
    if t.exhausted && !a.around.isEmpty s then ⟨s, t, restarts, .ended .yield, h⟩
    else ⟨s, t, restarts, .enlisting left, h⟩ := rfl

theorem step_enlisted : a.step ⟨s, t, restarts, .enlisted left, h⟩ =
    if t.drained && !a.around.isEmpty (a.around.meanwhile s) then
      ⟨a.around.meanwhile s, t, restarts, .resuming left, h⟩
    else ⟨a.around.meanwhile s, t, restarts, .ended .wait, h⟩ := rfl

end Looks

/-- A receive goes on with what it found. -/
theorem receive_point (c : Pace σ μ) (next : Option (Envelope μ) → Point σ μ) :
    ∃ e, (a.receive c next).point = next e := by
  unfold receive
  split
  · exact ⟨none, rfl⟩
  · split
    · exact ⟨_, rfl⟩
    · exact ⟨none, rfl⟩

/-! ## Failures -/

/-- How a failure can be met. -/
inductive Failed (a : Resident σ μ) (c : Pace σ μ) (reason : String) : Pace σ μ → Prop where
  /-- The agent is stopped, with a report of the failure. -/
  | stopped (hwhy : a.around.isTerminating (a.around.countFailure c.world) = true ∨
        a.policy.action ⟨a.id, reason, c.restarts⟩ = .stop) :
      Failed a c reason (a.complete { c with
        world := a.around.keepReport ⟨a.id, reason, c.restarts⟩ (a.around.countFailure c.world) })
  | restarted (hasked : a.around.isTerminating (a.around.countFailure c.world) = false)
      (haction : a.policy.action ⟨a.id, reason, c.restarts⟩ = .restart) (s : σ)
      (hrestart : a.behavior.onRestart (a.around.countFailure c.world) = (s, .ok ())) :
      Failed a c reason { c with world := s, restarts := c.restarts + 1, point := .ended .yield }
  /-- The agent could not be started again; the report is of the failure before. -/
  | broken (hasked : a.around.isTerminating (a.around.countFailure c.world) = false)
      (haction : a.policy.action ⟨a.id, reason, c.restarts⟩ = .restart) (s : σ) (why : String)
      (hrestart : a.behavior.onRestart (a.around.countFailure c.world) = (s, .error why)) :
      Failed a c reason (a.complete { c with
        world := a.around.keepReport ⟨a.id, reason, c.restarts⟩ s
        restarts := c.restarts + 1 })

/-- An agent that was asked to end is stopped, whatever the policy says. -/
theorem fail_asked {c : Pace σ μ} (reason : String)
    (hasked : a.around.isTerminating (a.around.countFailure c.world) = true) :
    a.fail c reason = a.complete { c with
      world := a.around.keepReport ⟨a.id, reason, c.restarts⟩
        (a.around.countFailure c.world) } := by
  simp [fail, Behavior.fail, hasked, complete]

/-- Every failure is met in one of the three ways. -/
theorem failed (c : Pace σ μ) (reason : String) : Failed a c reason (a.fail c reason) := by
  -- a request to end is looked at before the policy
  by_cases hasked : a.around.isTerminating (a.around.countFailure c.world) = true
  · rw [a.fail_asked reason hasked]
    exact .stopped (.inl hasked)
  -- then the policy decides, and a restart may fail
  · cases haction : a.policy.action ⟨a.id, reason, c.restarts⟩ with
    | stop =>
        have hfail : a.fail c reason = a.complete { c with
            world := a.around.keepReport ⟨a.id, reason, c.restarts⟩
              (a.around.countFailure c.world) } := by
          simp [fail, Behavior.fail, hasked, haction, complete]
        rw [hfail]
        exact .stopped (.inr haction)
    | restart =>
        rw [Bool.not_eq_true] at hasked
        rcases hrestart : a.behavior.onRestart (a.around.countFailure c.world) with ⟨s, why | ⟨⟩⟩
        · have hfail : a.fail c reason = a.complete { c with
              world := a.around.keepReport ⟨a.id, reason, c.restarts⟩ s
              restarts := c.restarts + 1 } := by
            simp [fail, Behavior.fail, hasked, haction, hrestart, complete]
          rw [hfail]
          exact .broken hasked haction s why hrestart
        · have hfail : a.fail c reason =
              { c with world := s, restarts := c.restarts + 1, point := .ended .yield } := by
            simp [fail, Behavior.fail, hasked, haction, hrestart]
          rw [hfail]
          exact .restarted hasked haction s hrestart

/-! ## The steps of a turn -/

/-- One pace comes to another by steps of the turn. -/
def LeadsTo : Pace σ μ → Pace σ μ → Prop := Relation.ReflTransGen fun c c' => a.step c = c'

variable {a}

theorem leadsTo_step {c c' : Pace σ μ} (h : a.LeadsTo (a.step c) c') : a.LeadsTo c c' :=
  Relation.ReflTransGen.head rfl h

theorem leadsTo_refl (c : Pace σ μ) : a.LeadsTo c c := Relation.ReflTransGen.refl

/-- Where a program goes, from any of the points at which programs run. -/
theorem leadsTo_program {α : Type} (at' : Program σ μ α → Point σ μ)
    (hchange : ∀ c f next, c.point = at' (.change f next) →
      a.step c = { c with world := f c.world, point := at' (next (f c.world)) })
    (hreceive : ∀ c next, c.point = at' (.receive next) →
      a.step c = a.receive c fun e => at' (next e))
    (p : Program σ μ α) (s : σ) (t : TurnBooks) (restarts : Nat) (history : List (Event μ)) :
    ∃ history', a.LeadsTo ⟨s, t, restarts, at' p, history⟩
      ⟨(p.run a.around s t).1, (p.run a.around s t).2.1, restarts,
        at' (.answer (p.run a.around s t).2.2), history'⟩ := by
  -- by induction on the program, one step for each of its constructors
  induction p generalizing s t history with
  | answer x => exact ⟨history, leadsTo_refl _⟩
  | change f next ih =>
      obtain ⟨history', h⟩ := ih (f s) (f s) t history
      refine ⟨history', leadsTo_step ?_⟩
      rw [hchange _ f next rfl]
      exact h
  | receive next ih =>
      by_cases hb : t.budget = 0
      · obtain ⟨history', h⟩ := ih none s { t with exhausted := true } history
        refine ⟨history', leadsTo_step ?_⟩
        rw [hreceive _ next rfl, receive, if_pos hb, Program.run, if_pos hb]
        exact h
      · rcases hd : a.around.dequeue s with ⟨s', _ | e⟩
        · obtain ⟨history', h⟩ := ih none s' { t with drained := true } history
          refine ⟨history', leadsTo_step ?_⟩
          rw [hreceive _ next rfl, receive, if_neg hb, Program.run, if_neg hb]
          simp only [hd]
          exact h
        · obtain ⟨history', h⟩ := ih (some e) s'
            { t with budget := t.budget - 1, received := t.received + 1 } (history ++ [.received e])
          refine ⟨history', leadsTo_step ?_⟩
          rw [hreceive _ next rfl, receive, if_neg hb, Program.run, if_neg hb]
          simp only [hd]
          exact h

/-- Where a turn stands at its end, with a history. -/
def ofResult (r : TurnResult σ) (history : List (Event μ)) : Pace σ μ :=
  ⟨r.world, r.books, r.restarts, .ended r.ending, history⟩

/-- The steps of a last word come to what the last word comes to. -/
theorem leadsTo_stop (c : Pace σ μ) :
    ∃ history', a.LeadsTo (a.stop c)
      (ofResult (a.behavior.stop a.around c.world c.books c.restarts) history') := by
  obtain ⟨history', h⟩ := leadsTo_program (a := a) .stopping
    (fun c f next hc => by rw [step, hc]) (fun c next hc => by rw [step, hc])
    a.behavior.onStop c.world c.books c.restarts (c.history ++ [.lastWord])
  exact ⟨history' ++ [.left], h.tail rfl⟩

/-- An agent that was not asked to end goes on to wait, or is resumed again. -/
theorem leadsTo_waiting {left : Nat}
    (hresumes : ∀ (s : σ) (t : TurnBooks) (restarts : Nat) (history : List (Event μ)),
      ∃ history', a.LeadsTo ⟨s, t, restarts, .resuming left, history⟩
        (ofResult (a.behavior.resumes a.around a.policy a.id left s t restarts) history'))
    (s : σ) (t : TurnBooks) (restarts : Nat) (history : List (Event μ)) :
    ∃ history', a.LeadsTo ⟨s, t, restarts, .waiting left, history⟩
      (ofResult
        (if t.exhausted && !a.around.isEmpty s then ⟨s, t, restarts, .yield⟩
        else
          let s := a.around.meanwhile (a.around.register s)
          if t.drained && !a.around.isEmpty s then
            a.behavior.resumes a.around a.policy a.id left s t restarts
          else ⟨s, t, restarts, .wait⟩)
        history') := by
  by_cases hmore : (t.exhausted && !a.around.isEmpty s) = true
  · refine ⟨history, leadsTo_step ?_⟩
    simp only [step, if_pos hmore]
    exact leadsTo_refl _
  · have henlisted : a.LeadsTo ⟨s, t, restarts, .waiting left, history⟩
        ⟨a.around.register s, t, restarts, .enlisted left, history⟩ := by
      refine leadsTo_step ?_
      simp only [step, if_neg hmore]
      exact leadsTo_step (leadsTo_refl _)
    rw [if_neg hmore]
    by_cases hagain : (t.drained &&
        !a.around.isEmpty (a.around.meanwhile (a.around.register s))) = true
    · -- a message came in before the agent was on the list
      obtain ⟨history', h⟩ :=
        hresumes (a.around.meanwhile (a.around.register s)) t restarts history
      refine ⟨history', henlisted.trans (leadsTo_step ?_)⟩
      simp only [step, if_pos hagain]
      exact h
    · refine ⟨history, henlisted.trans (leadsTo_step ?_)⟩
      simp only [step, if_neg hagain]
      exact leadsTo_refl _

/-- The steps from a resume on come to what the resumes of the turn come to. -/
theorem leadsTo_resumes (left : Nat) (s : σ) (t : TurnBooks) (restarts : Nat)
    (history : List (Event μ)) :
    ∃ history', a.LeadsTo ⟨s, t, restarts, .resuming left, history⟩
      (ofResult (a.behavior.resumes a.around a.policy a.id left s t restarts) history') := by
  -- by induction on the resumes left, which a resume that leads to another one uses up
  induction left generalizing s t restarts history with
  | zero => exact ⟨history, leadsTo_step (leadsTo_refl _)⟩
  | succ left ih =>
      simp only [Behavior.resumes]
      by_cases hend : (a.around.isTerminating (a.around.meanwhile s) &&
          a.around.isEmpty (a.around.meanwhile s)) = true
      · rw [if_pos hend]
        obtain ⟨history', h⟩ :=
          leadsTo_stop (a := a) ⟨a.around.meanwhile s, t, restarts, .resuming (left + 1), history⟩
        refine ⟨history', leadsTo_step ?_⟩
        simp only [step, if_pos hend]
        exact h
      · rw [if_neg hend]
        obtain ⟨heard, hrun⟩ := leadsTo_program (a := a) (.running left)
          (fun c f next hc => by rw [step, hc]) (fun c next hc => by rw [step, hc])
          a.behavior.resume (a.around.meanwhile s) { t with drained := false } restarts history
        rcases hr : a.behavior.resume.run a.around (a.around.meanwhile s)
          { t with drained := false } with ⟨s', t', answer⟩
        rw [hr] at hrun
        -- the resume runs to its answer; what is left is what the answer leads to
        have hfirst : a.LeadsTo ⟨s, t, restarts, .resuming (left + 1), history⟩
            ⟨s', t', restarts, .answered left answer, heard⟩ := by
          refine leadsTo_step ?_
          simp only [step, if_neg hend]
          exact hrun.tail rfl
        suffices h : ∃ history', a.LeadsTo ⟨s', t', restarts, .answered left answer, heard⟩
            (ofResult _ history') from
          h.imp fun _ hlast => hfirst.trans hlast
        rcases answer with reason | _ | _ | _
        · exact ⟨_, leadsTo_step (leadsTo_refl _)⟩
        · exact ⟨_, leadsTo_step (leadsTo_refl _)⟩
        · -- the agent wants to wait
          dsimp only
          by_cases hasked : a.around.isTerminating (a.around.meanwhile s') = true
          · rw [if_pos hasked]
            obtain ⟨history', h⟩ := leadsTo_stop (a := a)
              ⟨a.around.meanwhile s', t', restarts, .answered left (.ok .wait), heard⟩
            refine ⟨history', leadsTo_step ?_⟩
            simp only [step, if_pos hasked]
            exact h
          · rw [if_neg hasked]
            obtain ⟨history', h⟩ := leadsTo_waiting ih (a.around.meanwhile s') t' restarts heard
            refine ⟨history', leadsTo_step ?_⟩
            simp only [step, if_neg hasked]
            exact h
        · exact ⟨_, leadsTo_step (leadsTo_refl _)⟩

/-- Left alone, the steps of a turn come to what the turn comes to. -/
theorem leadsTo_turn (s : σ) (restarts : Nat) (history : List (Event μ)) :
    ∃ history', a.LeadsTo ⟨s, .opened a.quantum, restarts, .resuming a.quantum, history⟩
      (ofResult (a.behavior.turn a.around a.policy a.id a.quantum s restarts) history') :=
  leadsTo_resumes a.quantum s (.opened a.quantum) restarts history

/-! ## In company -/

/-- What others do between two steps of the agent, any number of times. -/
abbrev Interfering (others : Pace σ μ → Pace σ μ → Prop) : Pace σ μ → Pace σ μ → Prop :=
  Relation.ReflTransGen others

/-- The agent and the others come from one pace to another, in any order. -/
abbrev Runs (a : Resident σ μ) (others : Pace σ μ → Pace σ μ → Prop) : Pace σ μ → Pace σ μ → Prop :=
  Relation.ReflTransGen fun c c' => others c c' ∨ a.advance c = c'

/-- The others may leave the agent alone. -/
theorem runs_iterate (a : Resident σ μ) {others : Pace σ μ → Pace σ μ → Prop} (n : Nat)
    (c : Pace σ μ) : a.Runs others c (a.advance^[n] c) := by
  induction n with
  | zero => exact .refl
  | succ n ih =>
      rw [Function.iterate_succ_apply']
      exact ih.tail (.inr rfl)

/-- The steps of the agent lead to `P`, whatever others do between them. -/
inductive Inevitable (a : Resident σ μ) (others : Pace σ μ → Pace σ μ → Prop)
    (P : Pace σ μ → Prop) : Pace σ μ → Prop where
  | now {c : Pace σ μ} (h : P c) : Inevitable a others P c
  | later {c : Pace σ μ}
      (h : ∀ c', Interfering others c c' → Inevitable a others P (a.advance c')) :
      Inevitable a others P c

variable {others : Pace σ μ → Pace σ μ → Prop} {P Q : Pace σ μ → Prop}

theorem Inevitable.trans {c : Pace σ μ} (h : a.Inevitable others P c)
    (hstep : ∀ c', P c' → a.Inevitable others Q c') : a.Inevitable others Q c := by
  -- where the first end is reached, the second one is on its way
  induction h with
  | now h => exact hstep _ h
  | later h ih => exact .later ih

theorem Inevitable.mono {c : Pace σ μ} (h : a.Inevitable others P c) (himp : ∀ c', P c' → Q c') :
    a.Inevitable others Q c :=
  h.trans fun c' hc' => .now (himp c' hc')

end Resident

end Troupe
