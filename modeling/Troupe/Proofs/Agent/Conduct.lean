import Troupe.Proofs.Agent.Tenure

/-!
# What anybody may do to an agent

Messages, wakes and requests to end may come from anywhere and at any time. None of them takes
an agent off the register, opens its mailbox again or brings it back when it is gone. What ends
an agent from outside is for who stops the node.

* `AskCall.mild`, `civil_act` — what anybody may do;
* `Sound.alter`, `Sound.work` — an agent that is gone has closed its mailbox and left the
  register, and its worker sees to the rest;
* `Goes` — what becomes of an agent with a step of its own, of its worker or of others.
-/

namespace Troupe

open Header.Traffic (replace mem_replace mem_replace_some mem_replace_of_ne)

open Berth (rouse)

/-- A wake leaves an agent alone that is due, or done. -/
theorem Header.WakeCall.phase_settled {τ : Type} {h : Header τ} (call : WakeCall τ)
    (hphase : h.phase = .scheduled ∨ h.phase = .done) :
    (call.step h true).header.phase = h.phase := by
  cases call with
  | loading | taking | queueing task => rfl
  -- a wake changes the phase of an idle agent or of one in its turn only
  | waking | notifying => rcases hphase with hphase | hphase <;> simp [step, hphase]

variable {μ ε : Type}

/-- Whether anybody may do this at any time. -/
def Outside.isCommon : Outside μ → Bool
  | .callFinish | .finish _ | .strike | .fall => false
  | _ => true

namespace Office

/-- What an agent can change when it is resumed: what it knows itself, and what anybody may
change. -/
def Mingles (p p' : Office μ ε) : Prop :=
  ∃ (actions : List (Outside μ)) (own : ε),
    (∀ action ∈ actions, action.isCommon = true) ∧ p' = { p.acts actions with own }

/-- The agent was asked to end, and nobody is about to close its mailbox. -/
def IsUnheeded (p : Office μ ε) : Prop :=
  p.isAsked = true ∧ p.mailbox.isClosed = false ∧ ∀ call ∈ p.asks, call ≠ .closing .flagging

/-- The mailbox is closed or about to be, but nobody asked the agent to end. -/
def IsShut (p : Office μ ε) : Prop :=
  p.isAsked = false ∧ (p.mailbox.isClosed = true ∨ ∃ call ∈ p.asks, call.isEarly = false)

/-- What is left as it is by everything that anybody may do. -/
structure Mild (p p' : Office μ ε) : Prop where
  runner : p'.traffic.runner = p.traffic.runner
  isUp : p'.traffic.isUp = p.traffic.isUp
  register : p'.isRegistered = p.isRegistered
  phase : p.traffic.isUp = true → p.phase = .scheduled ∨ p.phase = .done → p'.phase = p.phase
  asked : p.isAsked = true → p'.isAsked = true
  closed : p.mailbox.isClosed = true → p'.mailbox.isClosed = true

/-- The same, and the requests to end go on as they should. -/
structure Civil (p p' : Office μ ε) : Prop extends Mild p p' where
  shut : p'.IsShut → p.IsShut
  unheeded : p'.IsUnheeded → p.IsUnheeded

variable {p p' p'' : Office μ ε}

theorem Civil.refl (p : Office μ ε) : Civil p p :=
  ⟨⟨rfl, rfl, rfl, fun _ _ => rfl, id, id⟩, id, id⟩

theorem Civil.trans (h : Civil p p') (h' : Civil p' p'') : Civil p p'' := by
  refine ⟨⟨h'.runner.trans h.runner, h'.isUp.trans h.isUp, h'.register.trans h.register, ?_,
    h'.asked ∘ h.asked, h'.closed ∘ h.closed⟩, h.shut ∘ h'.shut, h.unheeded ∘ h'.unheeded⟩
  intro hup hphase
  have hfirst := h.phase hup hphase
  exact (h'.phase (h.isUp.trans hup) (hfirst ▸ hphase)).trans hfirst

/-- What has no part in requests to end. -/
theorem Civil.of_mild (h : Mild p p') (hasked : p'.isAsked = p.isAsked)
    (hclosed : p'.mailbox.isClosed = p.mailbox.isClosed)
    (hlate : ∀ call ∈ p'.asks, call.isEarly = true ∨ call ∈ p.asks)
    (hasks : ∀ call ∈ p.asks, call ∈ p'.asks) : Civil p p' := by
  refine ⟨h, ?_, ?_⟩
  -- a request that is past its question was so before
  · rintro ⟨hnot, hshut | ⟨call, hcall, hpast⟩⟩
    · exact ⟨hasked.symm.trans hnot, .inl (hclosed.symm.trans hshut)⟩
    · refine ⟨hasked.symm.trans hnot, .inr ⟨call, (hlate call hcall).resolve_left ?_, hpast⟩⟩
      simp [hpast]
  · rintro ⟨hflag, hopen, hnone⟩
    exact ⟨hasked.symm.trans hflag, hclosed.symm.trans hopen, fun call hcall =>
      hnone call (hasks call hcall)⟩

/-- What happens behind the header has no part in requests to end. -/
theorem Civil.of_header (hrunner : p'.traffic.runner = p.traffic.runner)
    (hup : p'.traffic.isUp = p.traffic.isUp) (hregister : p'.isRegistered = p.isRegistered)
    (hheader : p'.traffic.header = p.traffic.header)
    (hclosed : p'.mailbox.isClosed = p.mailbox.isClosed) (hasks : p'.asks = p.asks) :
    Civil p p' := by
  have hasked : p'.isAsked = p.isAsked := congrArg Header.isTerminating hheader
  refine .of_mild ⟨hrunner, hup, hregister, ?_, hasked.trans, hclosed.trans⟩ hasked hclosed ?_ ?_
  · exact fun _ _ => congrArg Header.phase hheader
  · exact fun call hcall => .inr (hasks ▸ hcall)
  · exact fun call hcall => hasks ▸ hcall

/-- A waker that is called is a wake in progress. -/
theorem Civil.of_rouse (effects : List (Effect Unit))
    (htraffic : p'.traffic = effects.foldl rouse p.traffic)
    (hregister : p'.isRegistered = p.isRegistered)
    (hclosed : p'.mailbox.isClosed = p.mailbox.isClosed) (hasks : p'.asks = p.asks) :
    Civil p p' := by
  obtain ⟨more, hmore⟩ := rouse_foldl effects p.traffic
  rw [hmore] at htraffic
  refine .of_header ?_ ?_ hregister ?_ hclosed hasks
  · rw [htraffic]
  · rw [htraffic]
  · rw [htraffic]

end Office

/-! ## Requests to end -/

open Office (Mild Civil Mingles)

theorem AskCall.asks_step (p : Office μ ε) (call : AskCall) : (call.step p).1.asks = p.asks := by
  cases call with
  | _ => rfl

/-- A step of a request to end, whether it is counted among the requests at the office or not. -/
theorem AskCall.mild (p : Office μ ε) (call : AskCall) : Mild p (call.step p).1 := by
  -- asking sets a flag, closing closes, and waking does not reach an agent that is due or done
  cases call with
  | looking => exact (Civil.refl p).toMild
  | asking => exact ⟨rfl, rfl, rfl, fun _ _ => rfl, fun _ => rfl, id⟩
  | closing call =>
      obtain ⟨more, hmore⟩ := Office.rouse_foldl (call.step p.mailbox).effects p.traffic
      simp only [step, hmore]
      exact ⟨rfl, rfl, rfl, fun _ _ => rfl, id, (call.step_move p.mailbox).isClosed⟩
  | waking call =>
      have hasked := call.isTerminating_step p.traffic.header p.traffic.isUp
      refine ⟨rfl, rfl, rfl, fun hup hphase => ?_, hasked.trans, id⟩
      simp only [step, hup]
      exact call.phase_settled hphase

/-- A request after which nobody was asked to end has only looked the agent up. -/
theorem AskCall.of_unasked {p : Office μ ε} {call : AskCall}
    (hcall : call.isEarly = true ∨ p.isAsked = true) (hnot : (call.step p).1.isAsked = false) :
    call = .looking := by
  have hasked := (AskCall.mild p call).asked
  cases call with
  | looking => rfl
  | asking => cases hnot
  | _ => exact nomatch hnot.symm.trans (hasked (hcall.resolve_left Bool.false_ne_true))

/-- The first request to end closes the mailbox with its next step. -/
theorem AskCall.heeds {p : Office μ ε} {call : AskCall} (hasked : (call.step p).1.isAsked = true)
    (hopen : (call.step p).1.mailbox.isClosed = false) :
    (call.step p).2 = some (.closing .flagging) ∨
      p.isAsked = true ∧ p.mailbox.isClosed = false ∧ call ≠ .closing .flagging := by
  cases call with
  | looking => exact .inr ⟨hasked, hopen, by simp⟩
  | asking =>
      -- the first to ask is the one that goes on to close
      cases hbefore : p.isAsked with
      | false =>
          have hfirst : p.traffic.header.requestEnd.2 = true := by
            simpa [Header.requestEnd, Office.isAsked] using hbefore
          exact .inl (if_pos hfirst)
      | true => exact .inr ⟨rfl, hopen, by simp⟩
  | closing call =>
      obtain ⟨more, hmore⟩ := Office.rouse_foldl (call.step p.mailbox).effects p.traffic
      simp only [step, hmore] at hasked hopen
      cases call with
      | flagging => cases hopen
      | waking => exact .inr ⟨hasked, hopen, by simp⟩
  | waking call =>
      have hsame := call.isTerminating_step p.traffic.header p.traffic.isUp
      exact .inr ⟨hsame.symm.trans hasked, hopen, by simp⟩

namespace Office

theorem civil_wake (p : Office μ ε) (index : Nat) : Civil p (p.relay (.wake index)) := by
  cases hcall : p.traffic.wakes[index]? with
  | none =>
      rw [relay, Header.Traffic.next_wake_none hcall]
      exact .refl p
  | some call =>
      rw [relay, Header.Traffic.next_wake hcall]
      have hasked := call.isTerminating_step p.traffic.header p.traffic.isUp
      refine .of_mild ⟨rfl, rfl, rfl, fun hup hphase => ?_, hasked.trans, id⟩ hasked rfl
        (fun _ => .inr) fun _ => id
      simp only [hup]
      exact call.phase_settled hphase

/-- A request to end goes on as it should. -/
theorem civil_ask (p : Office μ ε) (index : Nat) : Civil p (p.act (.ask index)) := by
  simp only [act]
  split
  · exact .refl p
  · next call hcall =>
      have hmild := AskCall.mild p call
      refine ⟨⟨hmild.runner, hmild.isUp, hmild.register, hmild.phase, hmild.asked, hmild.closed⟩,
        ?_, ?_⟩
      · rintro ⟨hnot, hwhy⟩
        by_cases hearly : call.isEarly = true ∨ p.isAsked = true
        · -- the request has only looked the agent up
          obtain rfl := AskCall.of_unasked hearly hnot
          refine ⟨hnot, hwhy.imp id ?_⟩
          rintro ⟨other, hother, hlate⟩
          refine ⟨other, (mem_replace hother).resolve_right fun h => ?_, hlate⟩
          simp only [AskCall.step, Option.ite_none_right_eq_some, Option.some.injEq] at h
          rw [← h.2] at hlate
          cases hlate
        · rw [not_or, Bool.not_eq_true, Bool.not_eq_true] at hearly
          exact ⟨hearly.2, .inr ⟨call, List.mem_of_getElem? hcall, hearly.1⟩⟩
      · rintro ⟨hasked, hopen, hnone⟩
        -- an unheeded request was unheeded before: the one that set the flag is about to close
        rcases AskCall.heeds hasked hopen with hnext | ⟨hasked', hopen', hne⟩
        · refine absurd rfl (hnone (.closing .flagging) ?_)
          show _ ∈ replace p.asks index (call.step p).2
          rw [hnext]
          exact mem_replace_some _ _ _
        · refine ⟨hasked', hopen', fun other hother => ?_⟩
          by_cases hsame : other = call
          · exact hsame ▸ hne
          · exact hnone other (mem_replace_of_ne hcall hother hsame _)

/-- What anybody may do. -/
theorem civil_act (p : Office μ ε) {action : Outside μ} (hcommon : action.isCommon = true) :
    Civil p (p.act action) := by
  cases action with
  | callSend e => exact .of_header rfl rfl rfl rfl rfl rfl
  | send index =>
      simp only [act]
      split
      · exact .refl p
      · next call hcall => exact .of_rouse _ rfl rfl (call.step_move p.mailbox).isClosed rfl
  | callWake => exact .of_header rfl rfl rfl rfl rfl rfl
  | wake index => exact civil_wake p index
  | callAsk =>
      refine .of_mild ⟨rfl, rfl, rfl, fun _ _ => rfl, id, id⟩ rfl rfl ?_ ?_
      · intro call hcall
        rcases List.mem_append.mp hcall with hold | hnew
        · exact .inr hold
        · exact .inl (List.mem_singleton.mp hnew ▸ rfl)
      · exact fun call hcall => List.mem_append_left _ hcall
  | ask index => exact civil_ask p index
  | callFinish | finish index | strike | fall => cases hcommon

/-- What anybody may do one thing after the other is civil. -/
theorem civil_acts (p : Office μ ε) {actions : List (Outside μ)}
    (hcommon : ∀ action ∈ actions, action.isCommon = true) : Civil p (p.acts actions) := by
  -- by induction on what is done, since being civil composes
  induction actions generalizing p with
  | nil => exact .refl p
  | cons action rest ih =>
      rw [List.forall_mem_cons] at hcommon
      exact (civil_act p hcommon.1).trans (ih (p.act action) hcommon.2)

theorem Mingles.civil {p p' : Office μ ε} (h : Mingles p p') : Civil p p' := by
  obtain ⟨actions, own, hcommon, rfl⟩ := h
  exact (civil_acts p hcommon).trans (.of_header rfl rfl rfl rfl rfl rfl)

end Office

/-! ## The turn -/

theorem isClosed_dequeue {ω : Type} (m : Mailbox ω μ) : m.dequeue.state.isClosed = m.isClosed := by
  cases hqueue : m.queue with
  | nil => rw [Mailbox.dequeue_nil hqueue]
  | cons e rest =>
      rw [Mailbox.dequeue_cons hqueue]
      exact (Mailbox.sameMail_lower _ _).isClosed

/-- What a turn does around the agent leaves the requests to end alone. -/
theorem covers_civil : Office.Covers (Civil (μ := μ) (ε := ε)) Mingles := by
  constructor
  · exact .refl
  · exact .trans
  · exact Mingles.civil
  · exact fun p => .of_header rfl rfl rfl rfl (isClosed_dequeue p.mailbox) rfl
  · exact fun _ => .of_header rfl rfl rfl rfl rfl rfl
  · exact fun _ => .of_header rfl rfl rfl rfl rfl rfl
  · exact fun _ _ => .of_header rfl rfl rfl rfl rfl rfl

/-! ## Tenures -/

/-- The worker has seen to an agent that is gone, or is out of the way. -/
def Header.Runner.isOut {τ : Type} : Header.Runner τ → Bool
  | .away | .picked _ | .emptying _ => true
  | _ => false

namespace Tenure

/-- The agent has come to its end. -/
def IsGone (s : Tenure μ ε) : Prop := s.pace.point = .ended .done

/-- What holds of an agent that nobody ends from outside. -/
structure Sound (s : Tenure μ ε) : Prop where
  point : s.pace.point.Within Mingles
  isUp : s.office.traffic.isUp = true
  closed : s.IsGone → s.office.mailbox.isClosed = true
  struck : s.IsGone → s.office.isRegistered = false
  seen : s.IsGone → s.runner = .running () ∨ s.runner = .closing () ∨
    s.office.phase = .done ∧ s.runner.isOut = true
  shut : s.office.IsShut → s.IsGone

/-- What becomes of an agent with a step of its own or of others. -/
structure Goes (s s' : Tenure μ ε) : Prop where
  gone : s.IsGone → s'.IsGone
  struck : s'.office.isRegistered = s.office.isRegistered ∨ s'.IsGone
  asked : s.office.isAsked = true → s'.office.isAsked = true
  unheeded : s'.office.IsUnheeded → s.office.IsUnheeded

variable {s : Tenure μ ε} {behavior : Behavior (Office μ ε) μ}

/-- What anybody may do. -/
theorem Sound.alter (hs : s.Sound) {f : Office μ ε → Office μ ε} (h : Mild s.office (f s.office))
    (hshut : (f s.office).IsShut → s.office.IsShut) : (s.alter f).Sound := by
  have hrunner : (s.alter f).runner = s.runner := h.runner
  -- each fact is kept by what anybody may do, which leaves register, worker and phase alone
  constructor
  · exact hs.point
  · exact h.isUp.trans hs.isUp
  · exact fun hgone => h.closed (hs.closed hgone)
  · exact fun hgone => h.register.trans (hs.struck hgone)
  · intro hgone
    rw [hrunner]
    refine (hs.seen hgone).imp id (Or.imp id fun ⟨hdone, hout⟩ => ⟨?_, hout⟩)
    exact (h.phase hs.isUp (.inr hdone)).trans hdone
  · exact hs.shut ∘ hshut

theorem goes_alter {f : Office μ ε → Office μ ε} (h : Civil s.office (f s.office)) :
    Goes s (s.alter f) :=
  ⟨id, .inl h.register, h.asked, h.unheeded⟩

/-- The worker makes a step outside of the agent's turn. -/
theorem Sound.relay (hs : s.Sound) {action : Header.Traffic.Action}
    (hup : (s.office.traffic.next action).isUp = s.office.traffic.isUp)
    (hasked : (s.office.traffic.next action).header.isTerminating = s.office.isAsked)
    (hseen : s.IsGone → (s.office.traffic.next action).runner = .closing () ∨
      (s.office.traffic.next action).header.phase = .done ∧
        (s.office.traffic.next action).runner.isOut = true) :
    (s.alter (·.relay action)).Sound :=
  ⟨hs.point, hup.trans hs.isUp, hs.closed, hs.struck, fun hgone => .inr (hseen hgone),
    fun hshut => hs.shut ⟨hasked.symm.trans hshut.1, hshut.2⟩⟩

theorem goes_relay {action : Header.Traffic.Action}
    (hasked : (s.office.traffic.next action).header.isTerminating = s.office.isAsked) :
    Goes s (s.alter (·.relay action)) :=
  ⟨id, .inl rfl, hasked.trans, fun h => ⟨hasked.symm.trans h.1, h.2⟩⟩

/-- A worker takes the task out of a run queue. -/
theorem Sound.pick (hs : s.Sound) :
    (s.alter (·.relay .pick)).Sound ∧ Goes s (s.alter (·.relay .pick)) := by
  have hpick : s.office.traffic.next .pick = s.office.traffic ∨
      s.runner = .away ∧ ∃ task rest, s.office.traffic.next .pick =
        { s.office.traffic with queue := rest, runner := .picked task } := by
    simp only [Header.Traffic.next]
    split
    · next task rest haway _ => exact .inr ⟨haway, task, rest, rfl⟩
    · exact .inl rfl
  rcases hpick with hsame | ⟨haway, task, rest, hnext⟩
  · have hoffice : s.office.relay .pick = s.office := by rw [Office.relay, hsame]
    have hrelay := goes_relay (s := s) (congrArg (·.header.isTerminating) hsame)
    refine ⟨?_, hrelay⟩
    show ({ s with pace := { s.pace with world := s.office.relay .pick } } : Tenure μ ε).Sound
    rw [hoffice]
    exact hs
  · have hasked : (s.office.traffic.next .pick).header.isTerminating = s.office.isAsked := by
      rw [hnext]
      rfl
    refine ⟨hs.relay (by rw [hnext]) hasked fun hgone => .inr ?_, goes_relay hasked⟩
    rw [hnext]
    -- the worker is away, so it has seen to an agent that is gone
    rcases hs.seen hgone with hrunner | hrunner | ⟨hdone, -⟩
    · cases haway.symm.trans hrunner
    · cases haway.symm.trans hrunner
    · exact ⟨hdone, rfl⟩

/-- A step of a turn. -/
theorem Sound.turn (hs : s.Sound) {c : Pace (Office μ ε) μ} (hstep : Paced Civil Mingles s.pace c)
    (hrunner : s.runner = .running ()) (hnot : ¬ s.IsGone) :
    ({ s with pace := c } : Tenure μ ε).Sound ∧ Goes s { s with pace := c } := by
  -- the turn goes on, or this step ends it for good
  obtain ⟨p, hp, ⟨hworld, hgoes⟩ | ⟨hworld, hends⟩⟩ := hstep.world
  · have hcivil : Civil s.office c.world := hworld ▸ hp
    refine ⟨⟨hstep.point, hcivil.isUp.trans hs.isUp, fun h => absurd h hgoes,
      fun h => absurd h hgoes, fun h => absurd h hgoes, fun hshut => ?_⟩, ?_⟩
    · exact absurd (hs.shut (hcivil.shut hshut)) hnot
    · exact ⟨fun h => absurd h hnot, .inl hcivil.register, hcivil.asked, hcivil.unheeded⟩
  · -- the agent closes its mailbox and leaves the register
    obtain ⟨more, hmore⟩ := Office.rouse_foldl p.mailbox.close.effects p.traffic
    have hoffice : c.world = { p with
        mailbox := p.mailbox.close.state
        traffic := { p.traffic with wakes := p.traffic.wakes ++ more }
        isRegistered := false } := by
      rw [hworld, ← hmore]
      rfl
    refine ⟨⟨hstep.point, ?_, fun _ => ?_, fun _ => ?_, fun _ => .inl ?_, fun _ => hends⟩,
      ⟨fun _ => hends, .inr hends, ?_, ?_⟩⟩
    · show c.world.traffic.isUp = true
      rw [hoffice]
      exact hp.isUp.trans hs.isUp
    · show c.world.mailbox.isClosed = true
      rw [hoffice]
      rfl
    · show c.world.isRegistered = false
      rw [hoffice]
    · show c.world.traffic.runner = .running ()
      rw [hoffice]
      exact hp.runner.trans hrunner
    · intro hasked
      show c.world.isAsked = true
      rw [hoffice]
      exact hp.asked hasked
    · rintro ⟨-, hopen, -⟩
      have hopen' : c.world.mailbox.isClosed = false := hopen
      rw [hoffice] at hopen'
      cases hopen'

/-- The worker that has the task makes a step. -/
theorem Sound.work (hs : s.Sound) (hbehavior : behavior.Within Mingles) (policy : Policy)
    (id : AgentId) (quantum : Nat) :
    (s.work (Office.resident behavior policy id quantum)).Sound ∧
      Goes s (s.work (Office.resident behavior policy id quantum)) := by
  have hwork := s.work_cases (Office.resident behavior policy id quantum)
  generalize s.work (Office.resident behavior policy id quantum) = after at hwork
  have hasked := fun ending => s.runner.isTerminating_step s.office.traffic.header ending
  cases hwork with
  | turn task hrunner hon =>
      exact hs.turn (paced_step covers_civil policy id quantum hbehavior hs.point hon) hrunner
        (hon .done)
  | begin task hrunner hphase =>
      have hrunner' : s.office.traffic.runner = .picked task := hrunner
      -- a task about to be run is not that of an agent that is gone
      have hnot : ¬ s.IsGone := by
        intro hgone
        rcases hs.seen hgone with h | h | ⟨hdone, -⟩
        · exact nomatch hrunner.symm.trans h
        · exact nomatch hrunner.symm.trans h
        · exact nomatch hphase.symm.trans hdone
      refine ⟨⟨trivial, hs.isUp, nofun, nofun, nofun, fun hshut => ?_⟩,
        ⟨fun h => absurd h hnot, .inl rfl, (hasked .yield).trans, ?_⟩⟩
      · exact absurd (hs.shut ⟨(hasked .yield).symm.trans hshut.1, hshut.2⟩) hnot
      · exact fun h => ⟨(hasked .yield).symm.trans h.1, h.2⟩
  | leave task ending hrunner hover =>
      refine ⟨hs.relay rfl (hasked ending) fun hgone => .inl ?_, goes_relay (hasked ending)⟩
      obtain rfl : ending = .done := Point.ended.inj (hover.symm.trans hgone)
      have hrunner' : s.office.traffic.runner = .running task := hrunner
      simp only [Header.Traffic.next, hrunner', Header.Runner.step]
  | between hrunning hpicked =>
      refine ⟨hs.relay rfl (hasked .yield) fun hgone => ?_, goes_relay (hasked .yield)⟩
      rcases hs.seen hgone with hrunner | hrunner | ⟨hdone, hout⟩
      · exact absurd hrunner (hrunning ())
      · have hrunner' : s.office.traffic.runner = .closing () := hrunner
        simp [Header.Traffic.next, hrunner', Header.Runner.step, Header.Runner.isOut]
      · have hdone' : s.office.traffic.header.phase = .done := hdone
        have hout' : s.office.traffic.runner.isOut = true := hout
        simp only [Header.Traffic.next]
        cases hrunner : s.office.traffic.runner with
        | away | emptying task => exact .inr ⟨hdone', rfl⟩
        | picked task => simp [Header.Runner.step, hdone', Header.Runner.isOut]
        | _ => rw [hrunner] at hout'; cases hout'

/-- A worker without a task does nothing. -/
theorem work_away (a : Resident (Office μ ε) μ) (haway : s.runner = .away) : s.work a = s := by
  obtain ⟨⟨⟨⟨mailbox, sends, ⟨header, queue, isUp, runner, wakes, finishes⟩, own⟩, asks,
    isRegistered, failed, report⟩, books, restarts, point, history⟩, wasAsked⟩ := s
  obtain rfl : runner = .away := haway
  simp [work, Tenure.runner, office, alter, Office.relay, Header.Traffic.next, Header.Runner.step]

end Tenure

end Troupe
