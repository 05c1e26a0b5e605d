import Troupe.Proofs.Agent.Tenure

/-!
# A request to end is heard

Who asks an agent to end sets a flag, closes the mailbox and wakes the header. The agent looks
at the flag in its turn, and a turn that looked before the flag was set may still go on to park
the agent. The wake finds it parked and has it queued, or finds it in its turn and leaves a
note in the header, or finds a turn due that will see the flag. In none of these cases is the
agent put away once the wake has looked.

* `Heard` — what has become of the header once a request has seen to its wake;
* `Leads`, `leads_act`, `covers_leads` — others do not undo it, nor does the agent in its turn;
* `Kept.work` — nor does the worker: it parks an agent only from a turn that began unasked;
* `isHeeded_run` — so a request to end is never missed.
-/

namespace Troupe

open Header.Traffic (replace mem_replace mem_replace_some mem_replace_of_ne)

open Berth (rouse)

/-! ## Wakes -/

/-- A wake finds nothing to do: the agent is due already, or done. -/
def Phase.isSettled : Phase → Bool
  | scheduled | notified | done => true
  | _ => false

namespace Header

variable {τ : Type}

/-- A wake leaves the phase alone or settles it. -/
theorem WakeCall.settles (h : Header τ) (isUp : Bool) (call : WakeCall τ) :
    (call.step h isUp).header.phase = h.phase ∨
      (call.step h isUp).header.phase.isSettled = true := by
  -- a wake makes an agent due or notes that it came; one without a scheduler ends it
  cases call with
  | loading | taking => exact .inl rfl
  | waking | notifying =>
      simp only [step]
      split
      · exact .inr rfl
      · exact .inl rfl
  | queueing task =>
      cases isUp with
      | false => exact .inr rfl
      | true => exact .inl rfl

/-- A wake that has to look goes on looking until the phase is settled. -/
theorem WakeCall.settled_or_looking (h : Header τ) (isUp : Bool) {call : WakeCall τ}
    (hlooking : call.isLooking = true) :
    (call.step h isUp).header.phase.isSettled = true ∨
      ∃ after, (call.step h isUp).next = some after ∧ after.isLooking = true := by
  -- what a wake sees is settled, or tells it what to swap
  have hseeing : h.phase.isSettled = true ∨
      ∃ after : WakeCall τ, seeing h.phase = some after ∧ after.isLooking = true := by
    cases h.phase with
    | idle => exact .inr ⟨.waking, rfl, rfl⟩
    | running => exact .inr ⟨.notifying, rfl, rfl⟩
    | _ => exact .inl rfl
  cases call with
  | loading => exact hseeing
  | waking | notifying =>
      simp only [step]
      split
      · exact .inl rfl
      · exact hseeing
  | taking | queueing task => cases hlooking

/-- A wake that does not look any more does not look again. -/
theorem WakeCall.next_of_not_looking {h : Header τ} {isUp : Bool} {call after : WakeCall τ}
    (hnot : call.isLooking = false) (hafter : (call.step h isUp).next = some after) :
    after.isLooking = false := by
  cases call with
  | taking =>
      obtain ⟨task, -, rfl⟩ := Option.map_eq_some_iff.mp hafter
      rfl
  | queueing task => cases isUp <;> cases hafter
  | loading | waking | notifying => cases hnot

end Header

/-- Whether the first request to end still has to see to the wake of the agent. -/
def AskCall.isPressing : AskCall → Bool
  | closing _ => true
  | waking call => call.isLooking
  | _ => false

variable {μ ε : Type}

namespace Office

/-- The agent was asked to end, and its wake has looked at the header. -/
def IsPressed (p : Office μ ε) : Prop :=
  p.isAsked = true ∧ ∀ call ∈ p.asks, call.isPressing = false

/-- Once the wake has looked, the agent is not idle, and it is running without a note only in a
turn that began with the request in sight. -/
def Heard (p : Office μ ε) (begun : Bool) : Prop :=
  p.IsPressed → p.phase ≠ .idle ∧ (p.phase = .running → begun = true)

/-- What everything has in common that is done to an office between two steps of the worker. -/
structure Leads (p p' : Office μ ε) : Prop where
  runner : p'.traffic.runner = p.traffic.runner
  asked : p.isAsked = true → p'.isAsked = true
  pressed : p.IsPressed → p'.IsPressed
  heard : ∀ begun, p.Heard begun → p'.Heard begun

variable {p p' p'' : Office μ ε}

theorem Leads.refl (p : Office μ ε) : Leads p p := ⟨rfl, id, id, fun _ => id⟩

theorem Leads.trans (h : Leads p p') (h' : Leads p' p'') : Leads p p'' :=
  ⟨h'.runner.trans h.runner, h'.asked ∘ h.asked, h'.pressed ∘ h.pressed,
    fun begun => h'.heard begun ∘ h.heard begun⟩

theorem heard_of_settled {begun : Bool} (h : p.phase.isSettled = true) : p.Heard begun := by
  intro _
  constructor
  · intro hidle
    rw [hidle] at h
    cases h
  · intro hrunning
    rw [hrunning] at h
    cases h

/-- What neither adds nor loses a request that has to see to the wake, and settles the phase or
leaves it alone. -/
theorem Leads.of_phase (hrunner : p'.traffic.runner = p.traffic.runner)
    (hasked : p'.isAsked = p.isAsked)
    (hasks : ∀ call, call.isPressing = true → (call ∈ p'.asks ↔ call ∈ p.asks))
    (hphase : p'.phase = p.phase ∨ p'.phase.isSettled = true) : Leads p p' := by
  -- being pressed is a matter of the flag and of the requests that press
  have hpressed : p'.IsPressed ↔ p.IsPressed := by
    refine and_congr (by rw [hasked]) (forall_congr' fun call => ?_)
    cases hcall : call.isPressing with
    | false => simp
    | true => rw [hasks call hcall]
  refine ⟨hrunner, fun h => hasked.trans h, hpressed.mpr, fun begun hheard => ?_⟩
  rcases hphase with hsame | hsettled
  · intro h
    rw [hsame]
    exact hheard (hpressed.mp h)
  · exact heard_of_settled hsettled

/-- What happens behind the header. -/
theorem Leads.of_header (hrunner : p'.traffic.runner = p.traffic.runner)
    (hheader : p'.traffic.header = p.traffic.header)
    (hasks : ∀ call, call.isPressing = true → (call ∈ p'.asks ↔ call ∈ p.asks)) :
    Leads p p' := by
  refine .of_phase hrunner ?_ hasks (.inl ?_)
  · rw [isAsked, isAsked, hheader]
  · rw [phase, phase, hheader]

/-- As long as a request has to see to the wake there is nothing to be heard yet. -/
theorem Leads.of_pressing (hrunner : p'.traffic.runner = p.traffic.runner)
    (hasked : p.isAsked = true → p'.isAsked = true) (hnot : ¬ p.IsPressed) {call : AskCall}
    (hcall : call ∈ p'.asks) (hpressing : call.isPressing = true) : Leads p p' := by
  refine ⟨hrunner, hasked, fun h => absurd h hnot, fun _ _ hpressed => ?_⟩
  exact absurd (hpressed.2 call hcall) (by simp [hpressing])

/-- A wake at the header takes nothing back of what a request to end has come to. -/
theorem leads_wake (p : Office μ ε) (index : Nat) : Leads p (p.relay (.wake index)) := by
  cases hcall : p.traffic.wakes[index]? with
  | none =>
      rw [relay, Header.Traffic.next_wake_none hcall]
      exact .refl p
  | some call =>
      rw [relay, Header.Traffic.next_wake hcall]
      exact .of_phase rfl (call.isTerminating_step _ _) (fun _ _ => .rfl) (call.settles _ _)

theorem leads_finish (p : Office μ ε) (index : Nat) : Leads p (p.relay (.finish index)) := by
  simp only [relay, Header.Traffic.next]
  split
  · exact .refl p
  · next call _ =>
      cases call with
      | storing => exact .of_phase rfl rfl (fun _ _ => .rfl) (.inr rfl)
      | taking => exact .of_phase rfl rfl (fun _ _ => .rfl) (.inl rfl)

/-- A waker that is called is a wake in progress. -/
theorem leads_rouse (effects : List (Effect Unit))
    (htraffic : p'.traffic = effects.foldl rouse p.traffic) (hasks : p'.asks = p.asks) :
    Leads p p' := by
  obtain ⟨more, hmore⟩ := rouse_foldl effects p.traffic
  rw [hmore] at htraffic
  refine .of_header ?_ ?_ fun call _ => by rw [hasks]
  · rw [htraffic]
  · rw [htraffic]

/-- A request to end goes on. Whatever it has yet to see to, it says so until it is done. -/
theorem leads_ask (p : Office μ ε) (index : Nat) : Leads p (p.act (.ask index)) := by
  simp only [act]
  split
  · exact .refl p
  · next call hcall =>
      -- a request that does not press, and goes on without pressing, is none of those that count
      have hothers : ∀ after, call.isPressing = false →
          (∀ next, after = some next → next.isPressing = false) →
          ∀ other, other.isPressing = true →
            (other ∈ replace p.asks index after ↔ other ∈ p.asks) := by
        intro after hnot hafter other hpressing
        constructor
        · intro hother
          refine (mem_replace hother).resolve_right fun h => ?_
          exact absurd (hafter other h) (by simp [hpressing])
        · intro hother
          refine mem_replace_of_ne hcall hother ?_ after
          rintro rfl
          exact absurd hpressing (by simp [hnot])
      -- while this one presses, the request has not been heard
      have hmine : call.isPressing = true → ¬ p.IsPressed := by
        intro hpressing h
        exact absurd (h.2 call (List.mem_of_getElem? hcall)) (by simp [hpressing])
      cases call with
      | looking =>
          refine .of_header rfl rfl (hothers _ rfl fun next hnext => ?_)
          -- looking the agent up presses nobody
          cases hregistered : p.isRegistered <;> simp [AskCall.step, hregistered] at hnext
          rw [← hnext]
          rfl
      | asking =>
          cases hasked : p.isAsked with
          | true =>
              -- asked before: the flag is up already, and the request is over
              have hrequest : p.traffic.header.requestEnd = (p.traffic.header, false) := by
                have hflag : p.traffic.header.isTerminating = true := hasked
                rw [Header.requestEnd, hflag]
                exact Prod.ext (by rw [← hflag]) rfl
              simp only [AskCall.step, hrequest]
              exact .of_header rfl rfl (hothers _ rfl (by simp))
          | false =>
              -- the first to ask goes on to close, and presses until the wake has looked
              have hrequest : p.traffic.header.requestEnd.2 = true := by
                simpa [Header.requestEnd, isAsked] using hasked
              have hnot : ¬ p.IsPressed := fun h => absurd (hasked.symm.trans h.1) (by decide)
              simp only [AskCall.step, hrequest, if_true]
              exact .of_pressing rfl (fun _ => rfl) hnot (mem_replace_some _ _ _) rfl
      | closing call =>
          obtain ⟨more, hmore⟩ := rouse_foldl (call.step p.mailbox).effects p.traffic
          simp only [AskCall.step, hmore]
          cases call with
          | flagging => exact .of_pressing rfl id (hmine rfl) (mem_replace_some _ _ _) rfl
          | waking => exact .of_pressing rfl id (hmine rfl) (mem_replace_some _ _ _) rfl
      | waking call =>
          have hasked := call.isTerminating_step p.traffic.header p.traffic.isUp
          -- the wake settles the phase or goes on looking; once it has looked it presses no more
          by_cases hlooking : call.isLooking = true
          · rcases call.settled_or_looking p.traffic.header p.traffic.isUp hlooking with
              hsettled | ⟨after, hafter, hstill⟩
            · exact ⟨rfl, hasked.trans, fun h => absurd h (hmine hlooking),
                fun _ _ => heard_of_settled hsettled⟩
            · simp only [AskCall.step, hafter]
              exact .of_pressing rfl hasked.trans (hmine hlooking) (mem_replace_some _ _ _) hstill
          · rw [Bool.not_eq_true] at hlooking
            refine .of_phase rfl hasked (hothers _ hlooking fun next hnext => ?_) (call.settles _ _)
            obtain ⟨after, hafter, rfl⟩ := Option.map_eq_some_iff.mp hnext
            exact call.next_of_not_looking hlooking hafter

/-- What others do. -/
theorem leads_act (p : Office μ ε) (action : Outside μ) : Leads p (p.act action) := by
  cases action with
  | callSend e => exact .of_header rfl rfl fun _ _ => .rfl
  | send index =>
      simp only [act]
      split
      · exact .refl p
      · exact leads_rouse _ rfl rfl
  | callWake => exact .of_header rfl rfl fun _ _ => .rfl
  | wake index => exact leads_wake p index
  | callAsk =>
      refine .of_header rfl rfl fun call hpressing => ?_
      -- a request that begins does not press yet
      have hne : call ≠ .looking := by
        rintro rfl
        cases hpressing
      simp [act, hne]
  | ask index => exact leads_ask p index
  | callFinish => exact .of_header rfl rfl fun _ _ => .rfl
  | finish index => exact leads_finish p index
  | strike => exact .of_header rfl rfl fun _ _ => .rfl
  | fall => exact .of_header rfl rfl fun _ _ => .rfl

/-- What others do one after the other. -/
theorem leads_acts (p : Office μ ε) (actions : List (Outside μ)) : Leads p (p.acts actions) := by
  induction actions generalizing p with
  | nil => exact .refl p
  | cons action rest ih => exact (leads_act p action).trans (ih (p.act action))

/-- What the agent does when it is resumed. -/
theorem Touches.leads (h : Touches p p') : Leads p p' := by
  obtain ⟨actions, own, rfl⟩ := h
  exact (leads_acts p actions).trans (.of_header rfl rfl fun _ _ => .rfl)

theorem leads_complete (p : Office μ ε) : Leads p (around.complete p) :=
  leads_rouse p.mailbox.close.effects rfl rfl

end Office

/-! ## The turn -/

open Office (Leads Touches)

/-- What a turn does to the agent's office does not undo what others did. -/
theorem covers_leads : Office.Covers (Leads (μ := μ) (ε := ε)) Touches := by
  constructor
  · exact .refl
  · exact .trans
  · exact Touches.leads
  · exact fun _ => .of_header rfl rfl fun _ _ => .rfl
  · exact fun _ => .of_header rfl rfl fun _ _ => .rfl
  · exact fun _ => .of_header rfl rfl fun _ _ => .rfl
  · exact fun _ _ => .of_header rfl rfl fun _ _ => .rfl

theorem Paced.leads {c c' : Pace (Office μ ε) μ} (h : Paced Leads Touches c c') :
    Leads c.world c'.world := by
  obtain ⟨p, hp, ⟨hworld, -⟩ | ⟨hworld, -⟩⟩ := h.world
  · rw [hworld]
    exact hp
  · rw [hworld]
    exact hp.trans p.leads_complete

namespace Tenure

/-! ## The worker -/

/-- What a turn that began with a request in sight does not do: it does not go on to put the
agent away. So the worker puts it away only after a turn that began unasked, and where the
request has been heard it finds a note. -/
structure Kept (s : Tenure μ ε) : Prop where
  point : s.pace.point.Within Touches
  asked : s.wasAsked = true → s.office.isAsked = true
  staying : s.wasAsked = true → s.pace.point.isStaying = false
  leaving : s.runner.isLeaving = true → s.wasAsked = false
  heard : s.office.Heard s.wasAsked

variable {s : Tenure μ ε} {behavior : Behavior (Office μ ε) μ}

/-- Nobody has asked a new agent. -/
theorem kept_start (marks : Watermarks) (own : ε) : (start marks own : Tenure μ ε).Kept := by
  constructor
  · trivial
  · exact nofun
  · exact nofun
  · exact nofun
  · exact Office.heard_of_settled rfl

/-- What others do. -/
theorem Kept.alter (hs : s.Kept) {f : Office μ ε → Office μ ε} (h : Leads s.office (f s.office)) :
    (s.alter f).Kept := by
  -- others leave the point of the turn and the worker alone
  constructor
  · exact hs.point
  · exact fun hbegun => h.asked (hs.asked hbegun)
  · exact hs.staying
  · intro hleaving
    have hsame : (s.alter f).runner = s.runner := h.runner
    exact hs.leaving (hsame ▸ hleaving)
  · exact h.heard _ hs.heard

/-- Something happens at the header that asks nobody. -/
theorem Kept.relay (hs : s.Kept) {action : Header.Traffic.Action}
    (hasked : (s.office.traffic.next action).header.isTerminating = s.office.isAsked)
    (hleaving : (s.office.traffic.next action).runner.isLeaving = true → s.wasAsked = false)
    (hheard : (s.office.relay action).Heard s.wasAsked) : (s.alter (·.relay action)).Kept :=
  ⟨hs.point, fun hbegun => hasked.trans (hs.asked hbegun), hs.staying, hleaving, hheard⟩

/-- A worker that picks up a task asks nobody and parks nobody. -/
theorem Kept.pick (hs : s.Kept) : (s.alter (·.relay .pick)).Kept := by
  have hheader : (s.office.traffic.next .pick).header = s.office.traffic.header := by
    simp only [Header.Traffic.next]
    split
    · rfl
    · rfl
  refine hs.relay (congrArg Header.isTerminating hheader) ?_ ?_
  · simp only [Header.Traffic.next]
    split
    · intro hleaving
      cases hleaving
    · exact hs.leaving
  · intro hpressed
    have hpressed' : s.office.IsPressed :=
      ⟨(congrArg Header.isTerminating hheader).symm.trans hpressed.1, hpressed.2⟩
    have hphase : (s.office.relay .pick).phase = s.office.phase := congrArg Header.phase hheader
    rw [hphase]
    exact hs.heard hpressed'

/-- A step of a turn. -/
theorem Kept.turn (hs : s.Kept) (hbehavior : behavior.Within Touches) (policy : Policy)
    (id : AgentId) (quantum : Nat) (hon : ∀ ending, s.pace.point ≠ .ended ending) :
    ({ s with pace := (Office.resident behavior policy id quantum).step s.pace } :
      Tenure μ ε).Kept := by
  have hstep := paced_step covers_leads policy id quantum hbehavior hs.point hon
  constructor
  · exact hstep.point
  · exact fun hbegun => hstep.leads.asked (hs.asked hbegun)
  · exact fun hbegun => hstep.staying (hs.asked hbegun) (hs.staying hbegun)
  · intro hleaving
    have hsame := hstep.leads.runner
    exact hs.leaving (show s.pace.world.traffic.runner.isLeaving = true from hsame ▸ hleaving)
  · exact hstep.leads.heard _ hs.heard

/-- The worker leaves the turn. -/
theorem Kept.leave (hs : s.Kept) {task : Unit} {ending : TurnEnd}
    (hrunner : s.runner = .running task) (hover : s.pace.point = .ended ending) :
    (s.alter (·.relay (.run ending))).Kept := by
  have hrunner' : s.office.traffic.runner = .running task := hrunner
  refine hs.relay ?_ ?_ ?_
  · simp only [Header.Traffic.next, hrunner', Header.Runner.step]
    rfl
  · simp only [Header.Traffic.next, hrunner', Header.Runner.step]
    cases ending with
    | wait =>
        intro _
        -- a turn that began asked is at no point from which it would wait
        by_contra hbegun
        rw [Bool.not_eq_false] at hbegun
        have hstaying := hs.staying hbegun
        rw [hover] at hstaying
        cases hstaying
    | yield | done =>
        intro hleaving
        cases hleaving
  · have hsame : s.office.relay (.run ending) = { s.office with traffic :=
        { s.office.traffic with
          queue := s.office.traffic.queue ++ []
          runner := (s.office.relay (.run ending)).traffic.runner } } := by
      simp only [Office.relay, Header.Traffic.next, hrunner', Header.Runner.step]
      rfl
    rw [hsame]
    exact hs.heard

/-- A turn begins. -/
theorem kept_begin {task : Unit} (hrunner : s.runner = .picked task)
    (hphase : s.office.traffic.header.phase = .scheduled) (quantum : Nat) :
    (⟨{ (s.alter (·.relay (.run .yield))).pace with
        books := .opened quantum
        point := .resuming quantum }, s.office.isAsked⟩ : Tenure μ ε).Kept := by
  have hrunner' : s.office.traffic.runner = .picked task := hrunner
  have hnext : s.office.traffic.next (.run .yield) = { s.office.traffic with
      header := { s.office.traffic.header with phase := .running }
      queue := s.office.traffic.queue ++ []
      runner := .running task } := by
    simp only [Header.Traffic.next, hrunner', Header.Runner.step, if_pos hphase]
    rfl
  constructor
  · trivial
  · intro hasked
    show (s.office.traffic.next (.run .yield)).header.isTerminating = true
    rw [hnext]
    exact hasked
  · exact fun _ => rfl
  · intro hleaving
    have hrunning : (s.office.traffic.next (.run .yield)).runner.isLeaving = true := hleaving
    rw [hnext] at hrunning
    cases hrunning
  · -- a request that has been heard by now is in sight
    rintro ⟨hasked, -⟩
    have hasked' : (s.office.traffic.next (.run .yield)).header.isTerminating = true := hasked
    have hphase' : (s.office.traffic.next (.run .yield)).header.phase = .running := by rw [hnext]
    rw [hnext] at hasked'
    refine ⟨fun hidle => ?_, fun _ => hasked'⟩
    cases hphase'.symm.trans hidle

/-- The worker makes a step between two turns. -/
theorem Kept.between (hs : s.Kept) (hrunning : ∀ task, s.runner ≠ .running task)
    (hpicked : ∀ task, s.runner = .picked task → s.office.traffic.header.phase ≠ .scheduled) :
    (s.alter (·.relay (.run .yield))).Kept := by
  have hasked := s.runner.isTerminating_step s.office.traffic.header .yield
  refine hs.relay hasked ?_ ?_
  · rcases s.runner.next_cases s.office.traffic.header .yield with ⟨task, h⟩ | ⟨-, hnot | hbefore⟩
    · exact absurd h (hrunning task)
    · intro hleaving
      exact absurd (hnot.symm.trans hleaving) Bool.false_ne_true
    · exact fun _ => hs.leaving hbefore
  · intro hpressed
    have hpressed' : s.office.IsPressed := ⟨hasked.symm.trans hpressed.1, hpressed.2⟩
    -- a worker that makes the agent done settles it
    by_cases hclosing : s.runner.isClosing = true
    · have hdone : (s.office.relay (.run .yield)).phase = .done := by
        cases hrunner : s.runner with
        | closing task =>
            have hrunner' : s.office.traffic.runner = .closing task := hrunner
            simp only [Office.phase, Office.relay, Header.Traffic.next, hrunner',
              Header.Runner.step]
        | _ => rw [hrunner] at hclosing; cases hclosing
      exact Office.heard_of_settled (by rw [hdone]; rfl) hpressed
    · have hstay := Bool.not_eq_true _ ▸ hclosing
      rcases s.runner.phase_cases s.office.traffic.header .yield hstay with
        hsame | hscheduled | ⟨task, hrunner, hbegins⟩ | ⟨hsealing, hrunning', -⟩
      · have hphase : (s.office.relay (.run .yield)).phase = s.office.phase := hsame
        rw [hphase]
        exact hs.heard hpressed'
      · have hphase : (s.office.relay (.run .yield)).phase = .scheduled := hscheduled
        exact Office.heard_of_settled (by rw [hphase]; rfl) hpressed
      · -- a turn that does not begin leaves the phase alone
        have hstep : (s.runner.step s.office.traffic.header .yield).header.phase =
            s.office.traffic.header.phase := by
          rw [hrunner]
          simp only [Header.Runner.step, if_neg (hpicked task hrunner)]
        have hphase : (s.office.relay (.run .yield)).phase = s.office.phase := hstep
        rw [hphase]
        exact hs.heard hpressed'
      · -- the turn before began unasked, so nothing was heard that is forgotten now
        have hbegun := (hs.heard hpressed').2 hrunning'
        have hunasked := hs.leaving (by rw [hsealing]; rfl)
        exact absurd (hbegun.symm.trans hunasked) (by decide)

/-- A step of the worker, whatever it is. -/
theorem Kept.work (hs : s.Kept) (hbehavior : behavior.Within Touches) (policy : Policy)
    (id : AgentId) (quantum : Nat) :
    (s.work (Office.resident behavior policy id quantum)).Kept := by
  have hwork := s.work_cases (Office.resident behavior policy id quantum)
  generalize s.work (Office.resident behavior policy id quantum) = after at hwork
  cases hwork with
  | turn task hrunner hon => exact hs.turn hbehavior policy id quantum hon
  | leave task ending hrunner hover => exact hs.leave hrunner hover
  | begin task hrunner hphase => exact kept_begin hrunner hphase quantum
  | between hrunning hpicked => exact hs.between hrunning hpicked

/-- Whatever happens, a turn that began with a request in sight does not go on to put the agent
away. -/
theorem Kept.next (hs : s.Kept) (hbehavior : behavior.Within Touches) (policy : Policy)
    (id : AgentId) (quantum : Nat) (action : Action μ) :
    (s.next (Office.resident behavior policy id quantum) action).Kept := by
  cases action with
  | outside action => exact hs.alter (f := fun p => p.act action) (s.office.leads_act action)
  | pick => exact hs.pick
  | work => exact hs.work hbehavior policy id quantum

theorem Kept.run (hs : s.Kept) (hbehavior : behavior.Within Touches) (policy : Policy)
    (id : AgentId) (quantum : Nat) (actions : List (Action μ)) :
    (s.run (Office.resident behavior policy id quantum) actions).Kept := by
  induction actions generalizing s with
  | nil => exact hs
  | cons action rest ih => exact ih (hs.next hbehavior policy id quantum action)

/-! ## Turns that begin with a request in sight -/

/-- Whatever others do between the steps of the turn, it comes to its end, and the agent is not
put away then. -/
inductive Closes (a : Resident (Office μ ε) μ) : Tenure μ ε → Prop where
  | past {s : Tenure μ ε} (h : s.pace.point = .ended .yield ∨ s.pace.point = .ended .done) :
      Closes a s
  | on {s : Tenure μ ε} (hon : ∀ ending, s.pace.point ≠ .ended ending)
      (h : ∀ actions, Closes a ((s.meanwhile actions).work a)) : Closes a s

/-- The agent is in a turn that began with a request in sight. -/
structure Pressed (s : Tenure μ ε) : Prop where
  kept : s.Kept
  wasAsked : s.wasAsked = true
  runner : s.runner = .running ()

variable {policy : Policy} {id : AgentId} {quantum : Nat}

/-- Whatever others do, the next step of the turn is the agent's, with the request in sight. -/
theorem Pressed.work (hs : s.Pressed) (hbehavior : behavior.Within Touches)
    (hon : ∀ ending, s.pace.point ≠ .ended ending) (actions : List (Outside μ)) :
    ∃ p : Office μ ε, p.isAsked = true ∧
      ((s.meanwhile actions).work (Office.resident behavior policy id quantum)).pace =
        (Office.resident behavior policy id quantum).step { s.pace with world := p } ∧
      ((s.meanwhile actions).work (Office.resident behavior policy id quantum)).Pressed := by
  have hleads := s.office.leads_acts actions
  have hkept : (s.meanwhile actions).Kept := hs.kept.alter (f := fun p => p.acts actions) hleads
  have hrunner : (s.meanwhile actions).runner = .running () := hleads.runner.trans hs.runner
  have hwork := (s.meanwhile actions).work_cases (Office.resident behavior policy id quantum)
  have hnext := hkept.work hbehavior policy id quantum
  generalize (s.meanwhile actions).work (Office.resident behavior policy id quantum) = after
    at hwork hnext ⊢
  -- others leave the worker in the turn, so the step is one of the turn
  cases hwork with
  | turn task _ hon =>
      have hstep := paced_step covers_leads policy id quantum hbehavior hkept.point hon
      exact ⟨s.office.acts actions, hleads.asked (hs.kept.asked hs.wasAsked), rfl, hnext,
        hs.wasAsked, hstep.leads.runner.trans hrunner⟩
  | leave task ending _ hover => exact absurd hover (hon ending)
  | begin task hpicked _ => exact nomatch hrunner.symm.trans hpicked
  | between hnot _ => exact absurd hrunner (hnot ())

/-- The agent makes its next step of the turn. -/
theorem Pressed.closes (hs : s.Pressed) (hbehavior : behavior.Within Touches)
    (hon : ∀ ending, s.pace.point ≠ .ended ending)
    (h : ∀ (p : Office μ ε) (s' : Tenure μ ε), p.isAsked = true →
      s'.pace = (Office.resident behavior policy id quantum).step { s.pace with world := p } →
      s'.Pressed → Closes (Office.resident behavior policy id quantum) s') :
    Closes (Office.resident behavior policy id quantum) s := by
  refine .on hon fun actions => ?_
  obtain ⟨p, hasked, hpace, hpressed⟩ := hs.work hbehavior hon actions
  exact h p _ hasked hpace hpressed

/-- The last word is spoken to its end. -/
theorem closes_stopping (hbehavior : behavior.Within Touches)
    {rest : Program (Office μ ε) μ (Except String Unit)} (hs : s.Pressed)
    (hpoint : s.pace.point = .stopping rest) :
    Closes (Office.resident behavior policy id quantum) s := by
  -- by induction on what is left of the last word
  induction rest generalizing s with
  | answer answer =>
      refine hs.closes hbehavior (by simp [hpoint]) fun p s' _ hpace _ => ?_
      simp only [Resident.step, hpoint] at hpace
      exact .past (.inr (by rw [hpace]; rfl))
  | change f next ih =>
      refine hs.closes hbehavior (by simp [hpoint]) fun p s' _ hpace hpressed => ?_
      simp only [Resident.step, hpoint] at hpace
      exact ih (f p) hpressed (by rw [hpace])
  | receive next ih =>
      refine hs.closes hbehavior (by simp [hpoint]) fun p s' _ hpace hpressed => ?_
      simp only [Resident.step, hpoint] at hpace
      obtain ⟨e, he⟩ := Resident.receive_point (Office.resident behavior policy id quantum)
        { s.pace with world := p } fun e => .stopping (next e)
      exact ih e hpressed (by rw [hpace]; exact he)

/-- What the agent answers ends the turn, or leads to its last word. -/
theorem closes_answered (hbehavior : behavior.Within Touches) {left : Nat}
    {answer : Except String Step} (hs : s.Pressed) (hpoint : s.pace.point = .answered left answer) :
    Closes (Office.resident behavior policy id quantum) s := by
  refine hs.closes hbehavior (by simp [hpoint]) fun p s' hasked hpace hpressed => ?_
  cases answer with
  | error reason =>
      simp only [Resident.step, hpoint] at hpace
      rw [Resident.fail_asked _ reason hasked] at hpace
      exact .past (.inr (by rw [hpace]; rfl))
  | ok answer =>
      cases answer with
      | yield =>
          simp only [Resident.step, hpoint] at hpace
          exact .past (.inl (by rw [hpace]))
      | done =>
          simp only [Resident.step, hpoint] at hpace
          exact .past (.inr (by rw [hpace]; rfl))
      | wait =>
          have hasked' : (Office.around.meanwhile p : Office μ ε).isAsked = true := hasked
          -- asked to end, an agent that wants to wait is given its last word
          have hstop : s'.pace.point = .stopping behavior.onStop := by
            rw [hpace]
            simp only [Resident.step, hpoint]
            exact congrArg Pace.point (if_pos hasked)
          exact closes_stopping hbehavior hpressed hstop

/-- What the agent does when it is resumed comes to its answer. -/
theorem closes_running (hbehavior : behavior.Within Touches) {left : Nat}
    {rest : Program (Office μ ε) μ (Except String Step)} (hs : s.Pressed)
    (hpoint : s.pace.point = .running left rest) :
    Closes (Office.resident behavior policy id quantum) s := by
  -- by induction on what is left of the program
  induction rest generalizing s with
  | answer answer =>
      refine hs.closes hbehavior (by simp [hpoint]) fun p s' _ hpace hpressed => ?_
      simp only [Resident.step, hpoint] at hpace
      exact closes_answered hbehavior hpressed (by rw [hpace])
  | change f next ih =>
      refine hs.closes hbehavior (by simp [hpoint]) fun p s' _ hpace hpressed => ?_
      simp only [Resident.step, hpoint] at hpace
      exact ih (f p) hpressed (by rw [hpace])
  | receive next ih =>
      refine hs.closes hbehavior (by simp [hpoint]) fun p s' _ hpace hpressed => ?_
      simp only [Resident.step, hpoint] at hpace
      obtain ⟨e, he⟩ := Resident.receive_point (Office.resident behavior policy id quantum)
        { s.pace with world := p } fun e => .running left (next e)
      exact ih e hpressed (by rw [hpace]; exact he)

/-- A turn that began with a request in sight comes to its end and is not the beginning of a
wait: the agent is resumed once at most. -/
theorem Pressed.comes_to_end (hs : s.Pressed) (hbehavior : behavior.Within Touches) :
    Closes (Office.resident behavior policy id quantum) s := by
  have hstaying := hs.kept.staying hs.wasAsked
  cases hpoint : s.pace.point with
  | resuming left =>
      refine hs.closes hbehavior (by simp [hpoint]) fun p s' _ hpace hpressed => ?_
      cases left with
      | zero =>
          simp only [Resident.step, hpoint] at hpace
          exact .past (.inl (by rw [hpace]))
      | succ left =>
          simp only [Resident.step, hpoint] at hpace
          split at hpace
          · exact closes_stopping hbehavior hpressed (by rw [hpace]; rfl)
          · exact closes_running hbehavior hpressed (by rw [hpace])
  | running left rest => exact closes_running hbehavior hs hpoint
  | answered left answer => exact closes_answered hbehavior hs hpoint
  | stopping rest => exact closes_stopping hbehavior hs hpoint
  | ended ending =>
      cases ending with
      | yield => exact .past (.inl hpoint)
      | done => exact .past (.inr hpoint)
      | wait => rw [hpoint] at hstaying; cases hstaying
  | waiting _ | enlisting _ | enlisted _ => rw [hpoint] at hstaying; cases hstaying

/-! ## Runs -/

/-- A request that has been heard stays so. -/
theorem Kept.pressed_next (hs : s.Kept) (hbehavior : behavior.Within Touches) (policy : Policy)
    (id : AgentId) (quantum : Nat) (action : Action μ) (h : s.office.IsPressed) :
    (s.next (Office.resident behavior policy id quantum) action).office.IsPressed := by
  -- what happens at the header neither takes the flag down nor makes requests
  have hrelay : ∀ action : Header.Traffic.Action,
      (s.office.traffic.next action).header.isTerminating = s.office.isAsked →
      (s.office.relay action).IsPressed := fun _ hasked => ⟨hasked.trans h.1, h.2⟩
  cases action with
  | outside action => exact (s.office.leads_act action).pressed h
  | pick =>
      refine hrelay .pick ?_
      simp only [Header.Traffic.next]
      split
      · rfl
      · rfl
  | work =>
      have hrun := fun ending =>
        hrelay (.run ending) (s.runner.isTerminating_step s.office.traffic.header ending)
      have hwork := s.work_cases (Office.resident behavior policy id quantum)
      simp only [Tenure.next]
      generalize s.work (Office.resident behavior policy id quantum) = after at hwork
      cases hwork with
      | turn task _ hon =>
          exact (paced_step covers_leads policy id quantum hbehavior hs.point hon).leads.pressed h
      | leave task ending _ _ => exact hrun ending
      | begin task _ _ => exact hrun .yield
      | between _ _ => exact hrun .yield

/-- A request that has been heard stays so along every run. -/
theorem Kept.pressed_run (hs : s.Kept) (hbehavior : behavior.Within Touches) (policy : Policy)
    (id : AgentId) (quantum : Nat) (actions : List (Action μ)) (h : s.office.IsPressed) :
    (s.run (Office.resident behavior policy id quantum) actions).office.IsPressed := by
  induction actions generalizing s with
  | nil => exact h
  | cons action rest ih =>
      exact ih (hs.next hbehavior policy id quantum action)
        (hs.pressed_next hbehavior policy id quantum action h)

/-- The agent was asked to end, and whoever asked it first is done with that. -/
def IsAsked (s : Tenure μ ε) : Prop :=
  s.office.isAsked = true ∧ ∀ call ∈ s.office.asks, call.isEarly = true

/-- Requests to end are not missed by an agent. -/
structure IsHeeded (behavior : Behavior (Office μ ε) μ) (policy : Policy) (id : AgentId)
    (quantum : Nat) (s : Tenure μ ε) : Prop where
  /-- Once the request is made the agent does not wait any more. -/
  awake : s.IsAsked → ∀ actions,
    (s.run (Office.resident behavior policy id quantum) actions).state ≠ .waiting
  /-- A turn that began with the flag set comes to its end, which is not a wait. -/
  closes : s.wasAsked = true → s.runner = .running () →
    Closes (Office.resident behavior policy id quantum) s
  /-- A failure in such a turn stops the agent, whatever policy there is: it is reported with
  the restarts so far, the agent is not started again, and completed. -/
  fails : s.wasAsked = true → s.runner = .running () →
    ∀ left reason, s.pace.point = .answered left (.error reason) → ∀ actions other,
      ((s.meanwhile actions).work (Office.resident behavior other id quantum)).pace =
        (Office.resident behavior policy id quantum).complete { s.pace with
          world := { s.office.acts actions with
            failed := (s.office.acts actions).failed + 1
            report := some ⟨id, reason, s.pace.restarts⟩ } }

/-- However the steps of sends, wakes and requests to end or to finish mix with those of the
agent's turns and of its worker, requests to end are not missed. -/
theorem isHeeded_run (hbehavior : behavior.Within Touches) (policy : Policy) (id : AgentId)
    (quantum : Nat) (marks : Watermarks) (own : ε) (actions : List (Action μ)) :
    IsHeeded behavior policy id quantum
      ((start marks own).run (Office.resident behavior policy id quantum) actions) := by
  have hs := (kept_start marks own).run hbehavior policy id quantum actions
  generalize (start marks own).run (Office.resident behavior policy id quantum) actions = s at hs
  constructor
  · rintro ⟨hasked, hearly⟩ more hwaiting
    -- the first request is over, so nobody presses any more
    have hpressed : s.office.IsPressed := by
      refine ⟨hasked, fun call hcall => ?_⟩
      cases call with
      | looking | asking => rfl
      | closing _ | waking _ => exact nomatch hearly _ hcall
    have hlater := hs.pressed_run hbehavior policy id quantum more hpressed
    have hheard := (hs.run hbehavior policy id quantum more).heard hlater
    refine hheard.1 ?_
    have hstate : (s.run (Office.resident behavior policy id quantum) more).office.phase.state =
        .waiting := hwaiting
    cases hphase : (s.run (Office.resident behavior policy id quantum) more).office.phase with
    | idle => rfl
    | _ => exact nomatch hphase ▸ hstate
  · intro hbegun hrunner
    exact Pressed.comes_to_end ⟨hs, hbegun, hrunner⟩ hbehavior
  · intro hbegun hrunner left reason hpoint more other
    have hleads := s.office.leads_acts more
    have hwork := (s.meanwhile more).work_cases (Office.resident behavior other id quantum)
    have hrunner' : (s.meanwhile more).runner = .running () := hleads.runner.trans hrunner
    generalize (s.meanwhile more).work (Office.resident behavior other id quantum) = after
      at hwork ⊢
    cases hwork with
    | turn task _ _ =>
        have hasked : (Office.resident behavior other id quantum).around.isTerminating
            ((Office.resident behavior other id quantum).around.countFailure
              (s.office.acts more)) = true := hleads.asked (hs.asked hbegun)
        -- the turn meets the failure of an agent that was asked: whatever the policy, it is stopped
        have hstep : (Office.resident behavior other id quantum).step (s.meanwhile more).pace =
            (Office.resident behavior other id quantum).fail (s.meanwhile more).pace reason := by
          simp only [Resident.step, show (s.meanwhile more).pace.point = _ from hpoint]
          rfl
        exact hstep.trans (Resident.fail_asked _ reason hasked)
    | leave task ending _ hover => cases hpoint.symm.trans hover
    | begin task hpicked _ => cases hrunner'.symm.trans hpicked
    | between hnot _ => exact absurd hrunner' (hnot ())

/-- An agent that always waits. -/
def idler : Behavior (Office Unit Unit) Unit :=
  ⟨.answer (.ok .wait), .answer (.ok ()), fun p => (p, .ok ())⟩

theorem within_idler : idler.Within Touches :=
  ⟨trivial, trivial, fun p => ⟨[], p.own, rfl⟩⟩

/-- A request comes while the worker is putting the agent away: its task is in the slot, its
phase still running. The wake leaves a note, the worker finds it, and the next turn is the
agent's last. -/
theorem isHeeded_between_slot_and_phase :
    let a := Office.resident idler (.limited 3) ⟨1⟩ 5
    let parking : List (Action Unit) := .pick :: List.replicate 9 .work
    let asking : List (Action Unit) := .outside .callAsk :: List.replicate 6 (.outside (.ask 0))
    let leaving : List (Action Unit) := List.replicate 4 .work ++ .pick :: List.replicate 6 .work
    let s := (start ⟨2, 2, 0⟩ ()).run a (parking ++ asking)
    IsHeeded idler (.limited 3) ⟨1⟩ 5 s ∧ s.runner = .sealing ∧ s.state = .running ∧ s.IsAsked ∧
      (s.run a leaving).wasAsked = true ∧ (s.run a leaving).state = .done := by
  intro a parking asking leaving s
  refine ⟨isHeeded_run within_idler _ _ _ _ _ _, ?_, ?_, ⟨?_, ?_⟩, ?_, ?_⟩
  · subst s a parking asking
    cbv
  · subst s a parking asking
    cbv
  · subst s a parking asking
    cbv
  · have hnone : s.office.asks = [] := by
      subst s a parking asking
      cbv
    intro call hcall
    rw [hnone] at hcall
    cases hcall
  · subst s a parking asking leaving
    cbv
  · subst s a parking asking leaving
    cbv

end Tenure

end Troupe
