import Troupe.Proofs.Agent.Moves
import Troupe.Proofs.Agent.Tenure
import Troupe.Proofs.Mailbox.Gauge

/-!
# What a turn is allowed

A turn has an allowance of resumes and one of messages, of the same size. An agent that wants to
wait may be resumed again in the same turn, for something may have got in, so neither count
follows from the other; and the last word draws on the same allowance as the resumes before it.

Here a tally is kept beside the agent, of what happens in its present turn.

* `Keeps` — others put messages into a mailbox, and nobody but the agent takes any out;
* `Kept.turn` — what one step of a turn adds to the tally;
* `isBounded_run` — no turn exceeds its allowance, and an agent that was refused a message for
  lack of it is not put away.
-/

namespace Troupe

open Header.Traffic (replace mem_replace sum_replace)

open Office (Touches)

variable {μ ε : Type}

theorem Mailbox.SendCall.dequeued_step (m : Mailbox Unit μ) (call : Mailbox.SendCall μ) :
    (call.step m).state.totals.dequeued = m.totals.dequeued := by
  cases call with
  | reserving e =>
      by_cases hroom : m.reserved < m.marks.capacity
      · simp [step, Mailbox.reserve?, hroom]
      · simp [step, Mailbox.reserve?, hroom]
  | pushing e length =>
      by_cases hslot : m.queue.length < m.marks.capacity
      · simp [step, Mailbox.push?, hslot]
      · simp [step, Mailbox.push?, hslot]
  | engaging e length =>
      by_cases hraise : m.marks.high ≤ length ∧ m.isEngaged = false
      · simp [step, Mailbox.raise, hraise]
      · simp [step, hraise]
  | _ => rfl

namespace Office

variable {p p' p'' : Office μ ε}

/-! ## Mailboxes into which others write -/

/-- Every place taken in the mailbox is that of a message queued or of a send that will use it. -/
structure IsBalanced (p : Office μ ε) : Prop where
  reserved_eq : p.mailbox.reserved =
    p.mailbox.queue.length + (p.sends.map Mailbox.SendCall.places).sum
  reserved_le : p.mailbox.reserved ≤ p.mailbox.marks.capacity
  /-- No send has to give its place back. -/
  kept : ∀ e, .unreserving e ∉ p.sends

/-- Nothing is taken out of the mailbox, and no place in it is given back. -/
structure Keeps (p p' : Office μ ε) : Prop where
  balanced : p.IsBalanced → p'.IsBalanced
  dequeued : p'.mailbox.totals.dequeued = p.mailbox.totals.dequeued
  reserved : p.IsBalanced → p.mailbox.reserved ≤ p'.mailbox.reserved

theorem Keeps.refl (p : Office μ ε) : Keeps p p := ⟨id, rfl, fun _ => Nat.le_refl _⟩

theorem Keeps.trans (h : Keeps p p') (h' : Keeps p' p'') : Keeps p p'' :=
  ⟨h'.balanced ∘ h.balanced, h'.dequeued.trans h.dequeued,
    fun hp => Nat.le_trans (h.reserved hp) (h'.reserved (h.balanced hp))⟩

/-- What concerns neither the messages nor the sends. -/
theorem Keeps.of_eq (hmarks : p'.mailbox.marks = p.mailbox.marks)
    (hqueue : p'.mailbox.queue = p.mailbox.queue)
    (hreserved : p'.mailbox.reserved = p.mailbox.reserved)
    (hdequeued : p'.mailbox.totals.dequeued = p.mailbox.totals.dequeued)
    (hsends : p'.sends = p.sends) : Keeps p p' := by
  refine ⟨fun hp => ⟨?_, ?_, ?_⟩, hdequeued, fun _ => hreserved.ge⟩
  · rw [hreserved, hqueue, hsends]
    exact hp.reserved_eq
  · rw [hreserved, hmarks]
    exact hp.reserved_le
  · rw [hsends]
    exact hp.kept

/-- A send that is about to push has a place, and so finds a slot. -/
theorem IsBalanced.slot (hp : p.IsBalanced) {index : Nat} {e : Envelope μ} {length : Nat}
    (hcall : p.sends[index]? = some (.pushing e length)) :
    p.mailbox.queue.length < p.mailbox.marks.capacity := by
  obtain ⟨rest, hplaces, -⟩ := sum_replace Mailbox.SendCall.places hcall
  have hplace : (Mailbox.SendCall.pushing e length).places = 1 := rfl
  have heq := hp.reserved_eq
  have hle := hp.reserved_le
  omega

/-- The office after a step of a send. -/
def deliver (p : Office μ ε) (index : Nat) (call : Mailbox.SendCall μ) : Office μ ε :=
  { p with
    mailbox := (call.step p.mailbox).state
    sends := replace p.sends index (call.step p.mailbox).answer.getLeft?
    traffic := (call.step p.mailbox).effects.foldl Berth.rouse p.traffic }

/-- A step of a send takes nothing out of the mailbox. -/
theorem keeps_deliver {index : Nat} {call : Mailbox.SendCall μ}
    (hcall : p.sends[index]? = some call) : Keeps p (p.deliver index call) := by
  have hmove := call.step_move p.mailbox
  refine ⟨fun hp => ⟨?_, ?_, ?_⟩, call.dequeued_step p.mailbox, fun hp => ?_⟩
  · obtain ⟨rest, hplaces, hafter⟩ := sum_replace Mailbox.SendCall.places hcall
    have heq := hp.reserved_eq
    -- the place moves from the send to the queue, or stays
    have hbalance := hmove.places (by omega)
    show (call.step p.mailbox).state.reserved = (call.step p.mailbox).state.queue.length +
      ((replace p.sends index _).map Mailbox.SendCall.places).sum
    rw [hafter]
    omega
  · show (call.step p.mailbox).state.reserved ≤ (call.step p.mailbox).state.marks.capacity
    rw [hmove.marks]
    exact call.reserved_step hp.reserved_le
  · intro e he
    rcases mem_replace he with hold | hafter
    · exact hp.kept e hold
    · -- a push would have to find no slot, and it finds one
      have hafter := Sum.getLeft?_eq_some_iff.mp hafter
      obtain ⟨⟨length, rfl⟩, hfull⟩ := Mailbox.SendCall.pushing_of_unreserving hafter
      have hslot := hp.slot hcall
      omega
  · have hswing : call.Swing p.mailbox (call.step p.mailbox) :=
      Mailbox.SendCall.step_swing (fun e length h => hp.slot (h ▸ hcall))
        (fun e h => hp.kept e (h ▸ List.mem_of_getElem? hcall))
    show p.mailbox.reserved ≤ (call.step p.mailbox).state.reserved
    -- a send may add a place and never gives one back
    rcases hswing.reserved with hsame | ⟨hmore, -⟩ <;> omega

theorem keeps_ask (p : Office μ ε) (call : AskCall) : Keeps p (call.step p).1 := by
  cases call with
  | closing call =>
      have hmove := call.step_move p.mailbox
      refine .of_eq hmove.marks hmove.queue hmove.reserved ?_ rfl
      cases call <;> rfl
  | _ => exact .of_eq rfl rfl rfl rfl rfl

/-- Others put messages in, and take none out. -/
theorem keeps_act (p : Office μ ε) (action : Outside μ) : Keeps p (p.act action) := by
  cases action with
  | callSend e =>
      refine ⟨fun hp => ⟨?_, hp.reserved_le, ?_⟩, rfl, fun _ => Nat.le_refl _⟩
      -- a send that begins holds no place yet
      · rw [act, List.map_append, List.sum_append]
        exact hp.reserved_eq
      · intro e' he
        rcases List.mem_append.mp he with hold | hnew
        · exact hp.kept e' hold
        · cases List.mem_singleton.mp hnew
  | send index =>
      simp only [act]
      split
      · exact .refl p
      · next call hcall => exact keeps_deliver hcall
  | ask index =>
      simp only [act]
      split
      · exact .refl p
      · next call hcall => exact (keeps_ask p call).trans (.of_eq rfl rfl rfl rfl rfl)
  | _ => exact .of_eq rfl rfl rfl rfl rfl

theorem keeps_acts (p : Office μ ε) (actions : List (Outside μ)) : Keeps p (p.acts actions) := by
  induction actions generalizing p with
  | nil => exact .refl p
  | cons action rest ih => exact (keeps_act p action).trans (ih (p.act action))

/-- What the agent does itself is what others may do. -/
theorem Touches.keeps (h : Touches p p') : Keeps p p' := by
  obtain ⟨actions, own, rfl⟩ := h
  exact (keeps_acts p actions).trans (.of_eq rfl rfl rfl rfl rfl)

/-- A receive takes at most the message it hands out, with its place. -/
theorem dequeue_cases (hp : p.IsBalanced) :
    ({ p with mailbox := p.mailbox.dequeue.state } : Office μ ε).IsBalanced ∧
      p.mailbox.dequeue.state.totals.dequeued =
        p.mailbox.totals.dequeued + p.mailbox.dequeue.answer.toList.length := by
  cases hq : p.mailbox.queue with
  | nil =>
      rw [Mailbox.dequeue_nil hq]
      exact ⟨hp, rfl⟩
  | cons e rest =>
      -- the message leaves with its place
      have hsame := Mailbox.sameMail_lower (p.mailbox.dispatch rest) (p.mailbox.reserved - 1)
      have heq := hp.reserved_eq
      have hle := hp.reserved_le
      rw [hq, List.length_cons] at heq
      rw [Mailbox.dequeue_cons hq]
      refine ⟨⟨?_, ?_, hp.kept⟩, hsame.dequeued⟩
      · show (Mailbox.lower _ _).1.reserved = (Mailbox.lower _ _).1.queue.length + _
        rw [hsame.reserved, hsame.queue]
        simp only [Mailbox.dispatch]
        omega
      · show (Mailbox.lower _ _).1.reserved ≤ (Mailbox.lower _ _).1.marks.capacity
        rw [hsame.reserved, hsame.marks]
        simp only [Mailbox.dispatch]
        omega

end Office

/-! ## The tally of a turn -/

namespace Point

variable {σ : Type}

/-- How many resumes may still begin in the turn. -/
def left : Point σ μ → Nat
  | .resuming left | .running left _ | .answered left _ | .waiting left | .enlisting left
  | .enlisted left => left
  | .stopping _ | .ended _ => 0

/-- The agent is about to receive. -/
def isReceiving : Point σ μ → Bool
  | .running _ (.receive _) | .stopping (.receive _) => true
  | _ => false

/-- A resume has begun by the step from one point to the other. -/
def begins : Point σ μ → Point σ μ → Bool
  | .resuming _, .running _ _ => true
  | _, _ => false

/-- The agent has decided to wait, and may be put away. -/
def mayPark : Point σ μ → Bool
  | .enlisting _ | .enlisted _ | .ended .wait => true
  | _ => false

end Point

/-- What has happened in a turn. -/
structure Tally (μ : Type) where
  /-- How many messages the mailbox had handed out before the turn. -/
  before : Nat
  resumes : Nat := 0
  handed : List (Envelope μ) := []
  /-- A receive was refused for lack of budget although the mailbox was not empty. -/
  isRefused : Bool := false

/-- What a step of a turn adds to its tally. -/
def Tally.step (t : Tally μ) (c c' : Pace (Office μ ε) μ) : Tally μ where
  before := t.before
  resumes := t.resumes + if c.point.begins c'.point then 1 else 0
  handed := t.handed ++ History.received (c'.history.drop c.history.length)
  isRefused := t.isRefused ||
    (c.point.isReceiving && c.books.budget == 0 && !c.world.mailbox.isEmpty)

/-- An agent in office, and the tally of its present turn or of its last. -/
structure Shift (μ ε : Type) where
  tenure : Tenure μ ε
  tally : Tally μ

namespace Shift

def office (s : Shift μ ε) : Office μ ε := s.tenure.office

def pace (s : Shift μ ε) : Pace (Office μ ε) μ := s.tenure.pace

/-- A new agent with an empty mailbox, whose task is queued. -/
def start (marks : Watermarks) (own : ε) : Shift μ ε := ⟨.start marks own, { before := 0 }⟩

/-- What a step of the worker does to the tally: a new turn has a new one. -/
def tallied (a : Resident (Office μ ε) μ) (s : Shift μ ε) : Tally μ :=
  match s.tenure.runner with
  | .running _ =>
    match s.pace.point with
    | .ended _ => s.tally
    | _ => s.tally.step s.pace (a.step s.pace)
  | .picked _ =>
    if s.office.traffic.header.beginRun.2 then { before := s.office.mailbox.totals.dequeued }
    else s.tally
  | _ => s.tally

def next (a : Resident (Office μ ε) μ) (s : Shift μ ε) (action : Tenure.Action μ) : Shift μ ε :=
  ⟨s.tenure.next a action,
    match action with
    | .work => s.tallied a
    | _ => s.tally⟩

/-- What comes of actions one after another. -/
def run (a : Resident (Office μ ε) μ) (s : Shift μ ε) (actions : List (Tenure.Action μ)) :
    Shift μ ε :=
  actions.foldl (next a) s

/-- The tally is only looked at. -/
theorem tenure_run (a : Resident (Office μ ε) μ) (s : Shift μ ε)
    (actions : List (Tenure.Action μ)) : (s.run a actions).tenure = s.tenure.run a actions := by
  induction actions generalizing s with
  | nil => rfl
  | cons action rest ih => exact ih (s.next a action)

end Shift

/-! ## What the tally and the agent's books agree on -/

/-- The tally of a turn fits where the agent is in it. -/
structure Tally.Fits (quantum : Nat) (t : Tally μ) (c : Pace (Office μ ε) μ) : Prop where
  balanced : c.world.IsBalanced
  point : c.point.Within Touches
  resumes : t.resumes + c.point.left ≤ quantum
  budget : c.books.received + c.books.budget ≤ quantum
  counted : c.books.received = t.handed.length
  dequeued : c.world.mailbox.totals.dequeued = t.before + t.handed.length
  refused : t.isRefused = true → c.books.exhausted = true ∧ c.books.budget = 0 ∧
    0 < c.world.mailbox.reserved ∧ c.point.mayPark = false

/-- A receive begins no resume. -/
theorem Tally.step_receiving (t : Tally μ) {c c' : Pace (Office μ ε) μ}
    (hreceiving : c.point.isReceiving = true) {point : Point (Office μ ε) μ}
    (hbegins : c.point.begins point = false) (hpoint : c'.point = point) :
    t.step c c' = { t with
      handed := t.handed ++ History.received (c'.history.drop c.history.length)
      isRefused := t.isRefused || (c.books.budget == 0 && !c.world.mailbox.isEmpty) } := by
  simp [step, hpoint, hbegins, hreceiving]

namespace Tally.Fits

variable {quantum : Nat} {t : Tally μ} {c c' : Pace (Office μ ε) μ} {p : Office μ ε}

/-- What others do. -/
theorem keep (h : t.Fits quantum c) (hkeeps : Office.Keeps c.world p) :
    t.Fits quantum { c with world := p } where
  balanced := hkeeps.balanced h.balanced
  point := h.point
  resumes := h.resumes
  budget := h.budget
  counted := h.counted
  dequeued := hkeeps.dequeued.trans h.dequeued
  refused hrefused := by
    obtain ⟨hexhausted, hbudget, hmore, hpark⟩ := h.refused hrefused
    exact ⟨hexhausted, hbudget, Nat.lt_of_lt_of_le hmore (hkeeps.reserved h.balanced), hpark⟩

/-- A move that receives nothing and begins no resume adds nothing to the tally. -/
theorem move (h : t.Fits quantum c) (hworld : Office.Keeps c.world c'.world)
    (hpoint : c'.point.Within Touches) (hleft : c'.point.left ≤ c.point.left)
    (hbegins : c.point.begins c'.point = false) (hreceiving : c.point.isReceiving = false)
    (hbudget : c'.books.budget = c.books.budget) (hreceived : c'.books.received = c.books.received)
    (hexhausted : c'.books.exhausted = c.books.exhausted)
    (hhistory : History.received (c'.history.drop c.history.length) = [])
    (hpark : c'.point.mayPark = false ∨ c.point.mayPark = true ∨
      (c.books.exhausted = true → c.world.mailbox.isEmpty = true)) :
    (t.step c c').Fits quantum c' := by
  -- what the tally counts does not occur in this move
  have hsame : t.step c c' = t := by
    simp [Tally.step, hbegins, hreceiving, hhistory]
  rw [hsame]
  refine ⟨hworld.balanced h.balanced, hpoint, ?_, ?_, hreceived.trans h.counted,
    hworld.dequeued.trans h.dequeued, fun hrefused => ?_⟩
  · have hresumes := h.resumes
    omega
  · rw [hreceived, hbudget]
    exact h.budget
  · obtain ⟨hwas, hzero, hmore, hnot⟩ := h.refused hrefused
    refine ⟨hexhausted.trans hwas, hbudget.trans hzero,
      Nat.lt_of_lt_of_le hmore (hworld.reserved h.balanced), ?_⟩
    rcases hpark with hgoes | hparked | hempty
    · exact hgoes
    · rw [hparked] at hnot
      cases hnot
    · -- an agent out of budget looks at its mailbox before it settles down
      have hnone : c.world.mailbox.reserved = 0 := by
        simpa [Mailbox.isEmpty, Mailbox.length] using hempty hwas
      omega

/-- A receive is refused, or adds what it hands out. -/
theorem receive (h : t.Fits quantum c) {behavior : Behavior (Office μ ε) μ} {policy : Policy}
    {id : AgentId} {next : Option (Envelope μ) → Point (Office μ ε) μ}
    (hreceives : (Office.resident behavior policy id quantum).Receives c next c')
    (hreceiving : c.point.isReceiving = true)
    (hbegins : ∀ e, c.point.begins (next e) = false) (hnext : ∀ e, (next e).Within Touches)
    (hleft : ∀ e, (next e).left ≤ c.point.left) (hpark : ∀ e, (next e).mayPark = false) :
    (t.step c c').Fits quantum c' := by
  have hresumes : t.resumes + c.point.left ≤ quantum := h.resumes
  have hbooks := h.budget
  have hcounted := h.counted
  have hbefore := h.dequeued
  obtain ⟨hbalanced, hdequeued⟩ := Office.dequeue_cases h.balanced
  -- within its budget the agent has not been refused anything yet
  have hnever : c.books.budget ≠ 0 → t.isRefused = false := by
    intro hbudget
    rw [← Bool.not_eq_true]
    exact fun hrefused => hbudget (h.refused hrefused).2.1
  cases hreceives with
  | refused hbudget =>
      have hless := hleft none
      rw [t.step_receiving hreceiving (hbegins none) rfl]
      refine ⟨h.balanced, hnext none, by dsimp only; omega, hbooks, ?_, ?_, ?_⟩
      · simpa [History.received] using hcounted
      · simpa [History.received] using hbefore
      · intro hrefused
        refine ⟨rfl, hbudget, ?_, hpark none⟩
        -- it is refused with this receive, or it was before
        have hwhy : t.isRefused = true ∨ c.world.mailbox.isEmpty = false := by
          simpa [hbudget] using hrefused
        rcases hwhy with hwas | hmore
        · exact (h.refused hwas).2.2.1
        · exact Nat.pos_of_ne_zero (by simpa [Mailbox.isEmpty, Mailbox.length] using hmore)
  | handed hbudget p e hdequeue =>
      obtain ⟨rfl, hanswer⟩ := Prod.mk.inj hdequeue
      -- what is handed out is taken from the budget and added to the tally
      have hless := hleft (some e)
      rw [show c.world.mailbox.dequeue.answer = some e from hanswer] at hdequeued
      rw [t.step_receiving hreceiving (hbegins (some e)) rfl]
      refine ⟨hbalanced, hnext (some e), by dsimp only; omega, by dsimp only; omega, ?_, ?_, ?_⟩
      · simpa [History.received, Event.received?] using hcounted
      · simpa [History.received, Event.received?, hbefore, Nat.add_assoc] using hdequeued
      · intro hrefused
        simp [hnever hbudget, hbudget] at hrefused
  | nothing hbudget p hdequeue =>
      obtain ⟨rfl, hanswer⟩ := Prod.mk.inj hdequeue
      have hless := hleft none
      rw [show c.world.mailbox.dequeue.answer = none from hanswer] at hdequeued
      rw [t.step_receiving hreceiving (hbegins none) rfl]
      refine ⟨hbalanced, hnext none, by dsimp only; omega, hbooks, ?_, ?_, ?_⟩
      · simpa [History.received] using hcounted
      · simpa [History.received, hbefore] using hdequeued
      · intro hrefused
        simp [hnever hbudget, hbudget] at hrefused

/-- A resume takes one from those that may still begin. -/
theorem resume (h : t.Fits quantum c) {left : Nat} (hpoint : c.point = .resuming (left + 1))
    {program : Program (Office μ ε) μ (Except String Step)} (hprogram : program.Within Touches) :
    (t.step c { c with
      books := { c.books with drained := false }, point := .running left program }).Fits quantum
        { c with books := { c.books with drained := false }, point := .running left program } := by
  have hresumes := h.resumes
  -- one resume more is begun and one less is left
  have hstep : t.step c { c with
      books := { c.books with drained := false }, point := .running left program } =
      { t with resumes := t.resumes + 1 } := by
    simp [Tally.step, hpoint, Point.begins, Point.isReceiving, History.received]
  rw [hpoint] at hresumes
  rw [hstep]
  refine ⟨h.balanced, hprogram, ?_, h.budget, h.counted, h.dequeued, fun hrefused => ?_⟩
  · simp only [Point.left] at hresumes ⊢
    omega
  · obtain ⟨hexhausted, hbudget, hmore, -⟩ := h.refused hrefused
    exact ⟨hexhausted, hbudget, hmore, rfl⟩

section Turn

variable {behavior : Behavior (Office μ ε) μ} {policy : Policy} {id : AgentId}

/-- A failure is met outside the agent's mailbox. -/
theorem fail (h : t.Fits quantum c) (hbehavior : behavior.Within Touches) {left : Nat}
    {reason : String} (hpoint : c.point = .answered left (.error reason))
    (hfailed : (Office.resident behavior policy id quantum).Failed c reason c') :
    (t.step c c').Fits quantum c' := by
  have hcounted : Office.Keeps c.world (Office.around.countFailure c.world) :=
    .of_eq rfl rfl rfl rfl rfl
  have hrestarted : ∀ p answer,
      behavior.onRestart (Office.around.countFailure c.world) = (p, answer) →
        Office.Keeps c.world p := by
    intro p answer hrestart
    have hown := (hbehavior.onRestart (Office.around.countFailure c.world)).keeps
    rw [hrestart] at hown
    exact hcounted.trans hown
  -- whichever way the failure is met, nothing is received in between
  cases hfailed with
  | stopped hwhy =>
      refine h.move (hcounted.trans (.of_eq rfl rfl rfl rfl rfl)) trivial (Nat.zero_le _)
        ?_ ?_ rfl rfl rfl ?_ (.inl rfl)
      · rw [hpoint]; rfl
      · rw [hpoint]; rfl
      · simp [Resident.complete, History.received, Event.received?]
  | restarted hasked haction p hrestart =>
      refine h.move (hrestarted p _ hrestart) trivial (Nat.zero_le _) ?_ ?_ rfl rfl rfl ?_
        (.inl rfl)
      · rw [hpoint]; rfl
      · rw [hpoint]; rfl
      · simp [History.received]
  | broken hasked haction p why hrestart =>
      refine h.move ((hrestarted p _ hrestart).trans (.of_eq rfl rfl rfl rfl rfl)) trivial
        (Nat.zero_le _) ?_ ?_ rfl rfl rfl ?_ (.inl rfl)
      · rw [hpoint]; rfl
      · rw [hpoint]; rfl
      · simp [Resident.complete, History.received, Event.received?]

/-- What one step of a turn adds to its tally. -/
theorem turn (h : t.Fits quantum c) (hbehavior : behavior.Within Touches)
    (hmoves : (Office.resident behavior policy id quantum).Moves c c') :
    (t.step c c').Fits quantum c' := by
  obtain ⟨world, books, restarts, point, history⟩ := c
  -- one move after the other; most of them neither receive nor begin a resume
  have hwithin := h.point
  have hstill : Office.Keeps world world := .refl world
  have hsame : History.received (history.drop history.length) = [] := by
    simp [History.received]
  have hadds : ∀ event : Event μ, event.received? = none →
      History.received ((history ++ [event]).drop history.length) = [] := by
    intro event hevent
    simp [History.received, hevent]
  cases hmoves with
  | spent hpoint =>
      obtain rfl : point = _ := hpoint
      exact h.move hstill trivial (Nat.zero_le _) rfl rfl rfl rfl rfl hsame (.inl rfl)
  | resumes left hpoint hmust => exact h.resume hpoint hbehavior.resume
  | stops hasked hpoint =>
      rcases hpoint with ⟨⟨left, hpoint⟩, -⟩ | ⟨left, hpoint⟩
      · obtain rfl : point = _ := hpoint
        exact h.move hstill hbehavior.onStop (Nat.zero_le _) rfl rfl rfl rfl rfl (hadds _ rfl)
          (.inl rfl)
      · obtain rfl : point = _ := hpoint
        exact h.move hstill hbehavior.onStop (Nat.zero_le _) rfl rfl rfl rfl rfl (hadds _ rfl)
          (.inl rfl)
  | changes left f next hpoint =>
      obtain rfl : point = _ := hpoint
      exact h.move (hwithin.1 world).keeps (hwithin.2 _) (Nat.le_refl _) rfl rfl rfl rfl rfl hsame
        (.inl rfl)
  | reads left next hpoint c' hreceives =>
      obtain rfl : point = _ := hpoint
      -- in the turn and in the last word alike, a receive is the only way to a message
      exact h.receive hreceives rfl (fun _ => rfl) hwithin (fun _ => Nat.le_refl _) fun _ => rfl
  | answers left answer hpoint =>
      obtain rfl : point = _ := hpoint
      exact h.move hstill trivial (Nat.le_refl _) rfl rfl rfl rfl rfl hsame (.inl rfl)
  | yields left hpoint =>
      obtain rfl : point = _ := hpoint
      exact h.move hstill trivial (Nat.zero_le _) rfl rfl rfl rfl rfl hsame (.inl rfl)
  | fails left reason hpoint c' hfailed => exact h.fail hbehavior hpoint hfailed
  | waits left hpoint hasked =>
      obtain rfl : point = _ := hpoint
      exact h.move hstill trivial (Nat.le_refl _) rfl rfl rfl rfl rfl hsame (.inl rfl)
  | hurries left hpoint hmust =>
      obtain rfl : point = _ := hpoint
      exact h.move hstill trivial (Nat.zero_le _) rfl rfl rfl rfl rfl hsame (.inl rfl)
  | looks left hpoint hmay =>
      -- out of budget, it goes on only past an empty mailbox
      obtain rfl : point = _ := hpoint
      exact h.move hstill trivial (Nat.le_refl _) rfl rfl rfl rfl rfl hsame (.inr (.inr hmay))
  | enlists left hpoint =>
      obtain rfl : point = _ := hpoint
      exact h.move (.of_eq rfl rfl rfl rfl rfl) trivial (Nat.le_refl _) rfl rfl rfl rfl rfl hsame
        (.inr (.inl rfl))
  | stays left hpoint hmust =>
      obtain rfl : point = _ := hpoint
      exact h.move hstill trivial (Nat.le_refl _) rfl rfl rfl rfl rfl hsame (.inl rfl)
  | parks left hpoint hmay =>
      obtain rfl : point = _ := hpoint
      exact h.move hstill trivial (Nat.zero_le _) rfl rfl rfl rfl rfl hsame (.inr (.inl rfl))
  | adds f next hpoint =>
      obtain rfl : point = _ := hpoint
      exact h.move (hwithin.1 world).keeps (hwithin.2 _) (Nat.le_refl _) rfl rfl rfl rfl rfl hsame
        (.inl rfl)
  | hears next hpoint c' hreceives =>
      obtain rfl : point = _ := hpoint
      exact h.receive hreceives rfl (fun _ => rfl) hwithin (fun _ => Nat.le_refl _) fun _ => rfl
  | finishes hpoint =>
      have hcompleted : Office.Keeps world (Office.around.complete world) :=
        .of_eq rfl rfl rfl rfl rfl
      rcases hpoint with ⟨left, hpoint⟩ | ⟨answer, hpoint⟩
      · obtain rfl : point = _ := hpoint
        exact h.move hcompleted trivial (Nat.zero_le _) rfl rfl rfl rfl rfl (hadds _ rfl) (.inl rfl)
      · obtain rfl : point = _ := hpoint
        exact h.move hcompleted trivial (Nat.zero_le _) rfl rfl rfl rfl rfl (hadds _ rfl) (.inl rfl)

end Turn

end Tally.Fits

/-! ## Every turn -/

namespace Shift

variable {s : Shift μ ε} {behavior : Behavior (Office μ ε) μ} {policy : Policy} {id : AgentId}
  {quantum : Nat}

/-- The tally of the present turn fits where the agent is in it. -/
def Kept (quantum : Nat) (s : Shift μ ε) : Prop := s.tally.Fits quantum s.pace

theorem kept_start (quantum : Nat) (marks : Watermarks) (own : ε) :
    (start marks own : Shift μ ε).Kept quantum := by
  constructor
  · refine ⟨rfl, Nat.zero_le _, ?_⟩
    intro e he
    cases he
  · exact trivial
  · exact Nat.zero_le _
  · exact Nat.zero_le _
  · rfl
  · rfl
  · rintro ⟨⟩

/-- What happens at the header is no concern of the tally. -/
theorem Kept.relay (hs : s.Kept quantum) (action : Header.Traffic.Action) :
    s.tally.Fits quantum (s.tenure.alter (·.relay action)).pace :=
  hs.keep (.of_eq rfl rfl rfl rfl rfl)

/-- A step of the worker keeps the tally in step with the turn. -/
theorem Kept.work (hs : s.Kept quantum) (hbehavior : behavior.Within Touches) :
    (s.next (Office.resident behavior policy id quantum) .work).Kept quantum := by
  have hwork := Tenure.work_cases (Office.resident behavior policy id quantum) s.tenure
  unfold Kept next Tenure.next pace
  dsimp only
  generalize s.tenure.work (Office.resident behavior policy id quantum) = after at hwork
  cases hwork with
  | turn task hrunner hon =>
      have htally : s.tallied (Office.resident behavior policy id quantum) =
          s.tally.step s.pace ((Office.resident behavior policy id quantum).step s.pace) := by
        rw [tallied, hrunner]
        dsimp only
        split
        · next ending hover => exact absurd hover (hon ending)
        · rfl
      rw [htally]
      exact Tally.Fits.turn hs hbehavior (Resident.moves (fun _ => rfl) hon)
  | leave task ending hrunner hover =>
      have htally : s.tallied (Office.resident behavior policy id quantum) = s.tally := by
        rw [tallied, hrunner]
        dsimp only
        rw [show s.pace.point = .ended ending from hover]
      rw [htally]
      exact hs.relay (.run ending)
  | begin task hrunner hphase =>
      have hbegins : s.office.traffic.header.beginRun.2 = true := by
        simp [Header.beginRun, show s.office.traffic.header.phase = .scheduled from hphase]
      have htally : s.tallied (Office.resident behavior policy id quantum) =
          { before := s.office.mailbox.totals.dequeued } := by
        rw [tallied, hrunner]
        exact if_pos hbegins
      rw [htally]
      -- a new turn starts with nothing counted and the whole budget
      refine ⟨(hs.relay (.run .yield)).balanced, trivial, ?_, ?_, rfl, rfl, ?_⟩
      · exact Nat.le_of_eq (Nat.zero_add quantum)
      · exact Nat.le_of_eq (Nat.zero_add quantum)
      · rintro ⟨⟩
  | between hrunner hphase =>
      have htally : s.tallied (Office.resident behavior policy id quantum) = s.tally := by
        rw [tallied]
        split
        · next task hrunning => exact absurd hrunning (hrunner task)
        · next task hpicked =>
            have hnot := hphase task hpicked
            refine if_neg ?_
            simp [Header.beginRun, show s.office.traffic.header.phase ≠ .scheduled from hnot]
        · rfl
      rw [htally]
      exact hs.relay (.run .yield)

/-- Whatever happens, the tally fits. -/
theorem Kept.next (hs : s.Kept quantum) (hbehavior : behavior.Within Touches)
    (action : Tenure.Action μ) :
    (s.next (Office.resident behavior policy id quantum) action).Kept quantum := by
  cases action with
  | outside action => exact hs.keep (Office.keeps_act s.office action)
  | pick => exact hs.relay .pick
  | work => exact hs.work hbehavior

theorem Kept.run (hs : s.Kept quantum) (hbehavior : behavior.Within Touches)
    (actions : List (Tenure.Action μ)) :
    (s.run (Office.resident behavior policy id quantum) actions).Kept quantum := by
  induction actions generalizing s with
  | nil => exact hs
  | cons action rest ih => exact ih (hs.next hbehavior action)

/-- What others can do between two steps of the agent. -/
def Meddle (c c' : Pace (Office μ ε) μ) : Prop :=
  ∃ actions : List (Outside μ), c' = { c with world := c.world.acts actions }

/-- A turn keeps to its allowance. -/
structure IsBounded (a : Resident (Office μ ε) μ) (s : Shift μ ε) : Prop where
  resumes : s.tally.resumes ≤ a.quantum
  /-- What the agent is handed in its last word counts as well. -/
  handed : s.tally.handed.length ≤ a.quantum
  /-- The count that a turn reports is that of the messages that left the mailbox in it. -/
  counted : s.pace.books.received = s.tally.handed.length ∧
    s.office.mailbox.totals.dequeued = s.tally.before + s.pace.books.received
  /-- An agent that was refused a message for lack of budget is not put away. -/
  refused : s.tally.isRefused = true → s.pace.point ≠ .ended .wait
  /-- The turn ends, whatever others do meanwhile. -/
  ends : a.Inevitable Meddle Resident.IsOver s.pace

/-- A tally that fits shows a turn that keeps to its allowance. -/
theorem Kept.isBounded (hs : s.Kept quantum) :
    s.IsBounded (Office.resident behavior policy id quantum) := by
  have hresumes := hs.resumes
  have hbudget := hs.budget
  have hcounted := hs.counted
  constructor
  · show s.tally.resumes ≤ quantum
    omega
  · show s.tally.handed.length ≤ quantum
    omega
  · exact ⟨hcounted, hcounted ▸ hs.dequeued⟩
  · intro hrefused hput
    -- a refused agent is at no point from which it may be put away
    have hnot := (hs.refused hrefused).2.2.2
    rw [hput] at hnot
    cases hnot
  · apply Resident.inevitable_ended
    rintro c c' ⟨actions, rfl⟩
    rfl

/-- Whatever the agent does when it is resumed and whatever others do meanwhile, no turn exceeds
its allowance. -/
theorem isBounded_run (hbehavior : behavior.Within Touches) (policy : Policy) (id : AgentId)
    (quantum : Nat) (marks : Watermarks) (own : ε) (actions : List (Tenure.Action μ)) :
    ((start marks own).run (Office.resident behavior policy id quantum) actions).IsBounded
      (Office.resident behavior policy id quantum) :=
  ((kept_start quantum marks own).run hbehavior actions).isBounded

/-- An agent that receives three times and waits. -/
def eager : Behavior (Office Unit Unit) Unit :=
  ⟨.receive fun _ => .receive fun _ => .receive fun _ => .answer (.ok .wait), .answer (.ok ()),
    fun p => (p, .ok ())⟩

theorem within_eager : eager.Within Touches where
  resume := fun _ _ _ => trivial
  onStop := trivial
  onRestart p := ⟨[], p.own, rfl⟩

/-- Three messages get in before it has left its waker, one more than a turn may receive. It is
resumed a second time in the same turn, and not put away. -/
theorem isBounded_surprised :
    let a := Office.resident eager (.limited 3) ⟨1⟩ 2
    let arrival := .outside (.callSend ⟨(), .isolated, none, 0⟩) ::
      List.replicate 8 (.outside (.send 0))
    let s := (start ⟨4, 4, 0⟩ ()).run a
      (.pick :: List.replicate 7 .work ++ (arrival ++ arrival ++ arrival) ++
        List.replicate 10 .work)
    s.IsBounded a ∧ s.tally.resumes = 2 ∧ s.tally.handed.length = 2 ∧ s.tally.isRefused = true ∧
      s.office.mailbox.queue.length = 1 ∧ s.pace.point.mayPark = false := by
  intro a arrival s
  refine ⟨isBounded_run within_eager _ _ _ _ _ _, ?_, ?_, ?_, ?_, ?_⟩
  · subst s a arrival
    cbv
  · subst s a arrival
    cbv
  · subst s a arrival
    cbv
  · subst s a arrival
    cbv
  · subst s a arrival
    cbv

end Shift

end Troupe
