import Troupe.Proofs.Agent.Overtaking

/-!
# Agents that live on

The header of an agent that nobody ends, and whose turns are none of them the last. A wake
that is on its way to such an agent is not lost: it goes on until the agent is runnable, and
only the beginning of a turn forgets it.

* `IsLive.run`, `IsLive.wake` — such an agent stays so;
* `IsStirred.run`, `IsStirred.wake` — a wake is on its way until a turn begins.
-/

namespace Troupe

namespace Header

variable {τ : Type}

/-! ## Wakes that have not come to an end -/

/-- Whether a wake still has to look at the phase. -/
def WakeCall.isLooking : WakeCall τ → Bool
  | loading | waking | notifying => true
  | _ => false

/-- Whether the worker is putting the task away. -/
def Runner.isLeaving : Runner τ → Bool
  | parking _ | sealing => true
  | _ => false

/-- Whether the worker is about to make the agent done. -/
def Runner.isClosing : Runner τ → Bool
  | closing _ => true
  | _ => false

/-- A wake asks nobody to end. -/
theorem WakeCall.isTerminating_step (h : Header τ) (isUp : Bool) (call : WakeCall τ) :
    (call.step h isUp).header.isTerminating = h.isTerminating := by
  cases call with
  | loading | taking => rfl
  | waking | notifying =>
      simp only [step]
      split
      · rfl
      · rfl
  | queueing task => cases isUp <;> rfl

/-- A step of the worker asks nobody to end. -/
theorem Runner.isTerminating_step (h : Header τ) (ending : TurnEnd) (runner : Runner τ) :
    (runner.step h ending).header.isTerminating = h.isTerminating := by
  cases runner with
  | picked task =>
      simp only [step]
      split
      · rfl
      · rfl
  | swapping task woken =>
      by_cases hseen : h.phase = if woken then .notified else .running
      · simp only [step, if_pos hseen]
      · simp only [step, if_neg hseen]
  | sealing =>
      simp only [step]
      split
      · rfl
      · rfl
      · rfl
  | _ => rfl

/-- While there is a scheduler, a wake only ever makes an agent runnable. -/
theorem WakeCall.phase_cases (h : Header τ) (call : WakeCall τ) :
    (call.step h true).header.phase = h.phase ∨
      (call.step h true).header.phase = .scheduled ∨
      (call.step h true).header.phase = .notified := by
  cases call with
  | loading | taking | queueing task => exact .inl rfl
  | waking =>
      simp only [step]
      split
      · exact .inr (.inl rfl)
      · exact .inl rfl
  | notifying =>
      simp only [step]
      split
      · exact .inr (.inr rfl)
      · exact .inl rfl

/-- A wake that has to look goes on, or finds the agent runnable. -/
theorem WakeCall.looking_step {h : Header τ} (hne : h.phase ≠ .done) {call : WakeCall τ}
    (hlooking : call.isLooking = true) :
    (call.step h true).header.phase = .notified ∨ (call.step h true).header.phase = .scheduled ∨
      ∃ after, (call.step h true).next = some after ∧ after.isLooking = true := by
  -- what a wake sees tells it how to go on, or that there is nothing to do
  have hseeing : h.phase = .notified ∨ h.phase = .scheduled ∨
      ∃ after : WakeCall τ, seeing h.phase = some after ∧ after.isLooking = true := by
    cases hphase : h.phase with
    | idle => exact .inr (.inr ⟨.waking, rfl, rfl⟩)
    | scheduled => exact .inr (.inl rfl)
    | running => exact .inr (.inr ⟨.notifying, rfl, rfl⟩)
    | notified => exact .inl rfl
    | done => exact absurd hphase hne
  cases call with
  | loading => exact hseeing
  | waking =>
      simp only [step]
      split
      · exact .inr (.inl rfl)
      · exact hseeing
  | notifying =>
      simp only [step]
      split
      · exact .inl rfl
      · exact hseeing
  | taking | queueing task => cases hlooking

/-- What the worker makes of the phase of an agent whose turn is not its last. -/
theorem Runner.phase_cases (h : Header τ) (ending : TurnEnd) {runner : Runner τ}
    (hstay : runner.isClosing = false) :
    (runner.step h ending).header.phase = h.phase ∨
      (runner.step h ending).header.phase = .scheduled ∨
      (∃ task, runner = .picked task ∧ (runner.step h ending).header.phase = .running) ∨
      (runner = .sealing ∧ h.phase = .running ∧ (runner.step h ending).header.phase = .idle) := by
  -- the phase changes on beginning a turn, on swapping it for scheduled, and on parking
  cases runner with
  | picked task =>
      simp only [step]
      split
      · exact .inr (.inr (.inl ⟨task, rfl, rfl⟩))
      · exact .inl rfl
  | swapping task woken =>
      by_cases hseen : h.phase = if woken then .notified else .running
      · exact .inr (.inl (by simp only [step, if_pos hseen]))
      · exact .inl (by simp only [step, if_neg hseen])
  | sealing =>
      -- parking an agent that was notified is not done: its task is queued again
      cases hphase : h.phase with
      | running => exact .inr (.inr (.inr ⟨rfl, rfl, by simp [step, hphase]⟩))
      | _ => exact .inl (by simp [step, hphase])
  | overwriting => exact .inr (.inl rfl)
  | closing task => cases hstay
  | _ => exact .inl rfl

/-- Only from a turn does the worker go on to park the agent, or to end it. -/
theorem Runner.next_cases (h : Header τ) (ending : TurnEnd) (runner : Runner τ) :
    (∃ task, runner = .running task) ∨
      (runner.step h ending).next.isClosing = false ∧
        ((runner.step h ending).next.isLeaving = false ∨ runner.isLeaving = true) := by
  -- a look at the phase leads to a swap, or to nothing
  have hseeing : ∀ task : τ,
      (seeing task h.phase).isClosing = false ∧ (seeing task h.phase).isLeaving = false := by
    intro task
    cases h.phase with
    | _ => exact ⟨rfl, rfl⟩
  cases runner with
  | running task => exact .inl ⟨task, rfl⟩
  | loading task => exact .inr ((hseeing task).imp_right .inl)
  | swapping task woken =>
      by_cases hseen : h.phase = if woken then .notified else .running
      · simp only [step, if_pos hseen]
        exact .inr ⟨rfl, .inl rfl⟩
      · simp only [step, if_neg hseen]
        exact .inr ((hseeing task).imp_right .inl)
  | picked task | retaking =>
      simp only [step]
      split
      · exact .inr ⟨rfl, .inl rfl⟩
      · exact .inr ⟨rfl, .inl rfl⟩
  | sealing =>
      refine .inr ⟨?_, .inr rfl⟩
      simp only [step]
      split
      · rfl
      · rfl
      · rfl
  | parking task => exact .inr ⟨rfl, .inr rfl⟩
  | _ => exact .inr ⟨rfl, .inl rfl⟩

namespace Traffic

/-- A wake that comes to an agent now makes it runnable, or has made it so. -/
def IsStirred (t : Traffic τ) : Prop :=
  t.header.phase = .notified ∨ t.header.phase = .scheduled ∨
    ∃ call ∈ t.wakes, call.isLooking = true

/-- The worker puts the task away, or has done so. -/
def IsPutAway (t : Traffic τ) : Prop := t.runner.isLeaving = true ∨ t.header.phase = .idle

/-- An agent that is not asked to end, and whose turns are none of them the last. -/
structure IsLive (t : Traffic τ) : Prop where
  kept : t.Kept
  phase_ne : t.header.phase ≠ .done
  isUp : t.isUp = true
  isTerminating : t.header.isTerminating = false
  isClosing : t.runner.isClosing = false

/-- A task that a worker has just picked up is that of a scheduled agent. -/
theorem Standing.of_picked {phase : Phase} {task : τ} {slot : Option τ} {queue : List τ}
    {held takers : Nat} (hs : Standing phase (.picked task) slot queue held takers) :
    phase = .scheduled ∨ phase = .done := by
  cases hs with
  | picked => exact .inl rfl
  | inTurn _ hturn => exact nomatch hturn
  | done _ => exact .inr rfl

/-- An agent that has its turn is not idle. -/
theorem Standing.of_running {phase : Phase} {task : τ} {slot : Option τ} {queue : List τ}
    {held takers : Nat} (hs : Standing phase (.running task) slot queue held takers) :
    phase ≠ .idle := by
  cases hs with
  | inTurn hphase _ => rcases hphase with rfl | rfl <;> exact nofun
  | done _ => exact nofun

theorem isLive_start (task : τ) : (start task).IsLive :=
  ⟨kept_start task, nofun, rfl, rfl, rfl⟩

variable {t : Traffic τ}

theorem next_wake {index : Nat} {call : WakeCall τ} (hcall : t.wakes[index]? = some call) :
    t.next (.wake index) = { t with
      header := (call.step t.header t.isUp).header
      queue := t.queue ++ (call.step t.header t.isUp).pushed.toList
      wakes := replace t.wakes index (call.step t.header t.isUp).next } := by
  simp only [next, hcall]

theorem next_wake_none {index : Nat} (hcall : t.wakes[index]? = none) :
    t.next (.wake index) = t := by
  simp only [next, hcall]

/-- A wake never makes an agent done while there is a scheduler. -/
theorem IsLive.wake (ht : t.IsLive) (index : Nat) : (t.next (.wake index)).IsLive := by
  have hkept := ht.kept.next (.wake index) nofun
  cases hcall : t.wakes[index]? with
  | none => rwa [next_wake_none hcall]
  | some call =>
      rw [next_wake hcall] at hkept ⊢
      rw [ht.isUp] at hkept ⊢
      refine ⟨hkept, ?_, rfl, (call.isTerminating_step _ _).trans ht.isTerminating, ht.isClosing⟩
      rcases call.phase_cases t.header with hsame | hscheduled | hnotified
      · exact fun hdone => ht.phase_ne (hsame.symm.trans hdone)
      · exact fun hdone => nomatch hscheduled.symm.trans hdone
      · exact fun hdone => nomatch hnotified.symm.trans hdone

theorem IsLive.callWake (ht : t.IsLive) : (t.next .callWake).IsLive :=
  ⟨ht.kept.next .callWake nofun, ht.phase_ne, ht.isUp, ht.isTerminating, ht.isClosing⟩

theorem IsLive.pick (ht : t.IsLive) : (t.next .pick).IsLive := by
  have hkept := ht.kept.next .pick nofun
  simp only [next] at hkept ⊢
  split
  · next haway hqueue =>
      rw [haway, hqueue] at hkept
      exact ⟨hkept, ht.phase_ne, ht.isUp, ht.isTerminating, rfl⟩
  · exact ht

/-- The worker makes a step; if the turn ends, it is not the agent's last. -/
theorem IsLive.run (ht : t.IsLive) {ending : TurnEnd}
    (hending : (∃ task, t.runner = .running task) → ending ≠ .done) :
    (t.next (.run ending)).IsLive := by
  have hkept := ht.kept.next (.run ending) fun _ _ _ => ht.phase_ne
  refine ⟨hkept, ?_, ht.isUp, ?_, ?_⟩
  · show (t.runner.step t.header ending).header.phase ≠ .done
    rcases t.runner.phase_cases t.header ending ht.isClosing with
      hsame | hscheduled | ⟨_, -, hrunning⟩ | ⟨-, -, hidle⟩
    · rw [hsame]
      exact ht.phase_ne
    · rw [hscheduled]
      exact nofun
    · rw [hrunning]
      exact nofun
    · rw [hidle]
      exact nofun
  · exact (t.runner.isTerminating_step _ _).trans ht.isTerminating
  · show (t.runner.step t.header ending).next.isClosing = false
    rcases t.runner.next_cases t.header ending with ⟨task, hrunner⟩ | ⟨hnot, -⟩
    · have hne := hending ⟨task, hrunner⟩
      rw [hrunner]
      cases ending with
      | done => exact absurd rfl hne
      | yield | wait => rfl
    · exact hnot

theorem isStirred_callWake (t : Traffic τ) : (t.next .callWake).IsStirred :=
  .inr (.inr ⟨.loading, List.mem_append_right _ List.mem_cons_self, rfl⟩)

theorem IsStirred.pick (hs : t.IsStirred) : (t.next .pick).IsStirred := by
  simp only [next]
  split
  · exact hs
  · exact hs

/-- An agent that is stirred stays so when a wake makes a step. -/
theorem IsStirred.wake (hs : t.IsStirred) (ht : t.IsLive) (index : Nat) :
    (t.next (.wake index)).IsStirred := by
  cases hcall : t.wakes[index]? with
  | none => rwa [next_wake_none hcall]
  | some call =>
      rw [next_wake hcall, ht.isUp]
      -- a runnable agent stays so, and a wake that looks goes on or makes it so
      have hphase := call.phase_cases t.header
      rcases hs with hnotified | hscheduled | ⟨other, hother, hlooking⟩
      · rw [hnotified] at hphase
        exact hphase.elim .inl fun h => h.elim (fun h => .inr (.inl h)) .inl
      · rw [hscheduled] at hphase
        exact hphase.elim (fun h => .inr (.inl h)) fun h => h.elim (fun h => .inr (.inl h)) .inl
      -- the wake that makes the step is the one that was looking, or another
      · by_cases hsame : other = call
        · subst hsame
          rcases WakeCall.looking_step ht.phase_ne hlooking with h | h | ⟨after, hafter, hstill⟩
          · exact .inl h
          · exact .inr (.inl h)
          · rw [hafter]
            exact .inr (.inr ⟨after, mem_replace_some _ _ after, hstill⟩)
        · exact .inr (.inr ⟨other, mem_replace_of_ne hcall hother hsame _, hlooking⟩)

/-- The worker forgets a wake only when it begins a turn. -/
theorem IsStirred.run (hs : t.IsStirred) (ht : t.IsLive) (ending : TurnEnd)
    (hpicked : ∀ task, t.runner ≠ .picked task) : (t.next (.run ending)).IsStirred := by
  rcases t.runner.phase_cases t.header ending ht.isClosing with
    hsame | hscheduled | ⟨task, hrunner, -⟩ | ⟨-, hrunning, -⟩
  · exact hs.imp hsame.trans (Or.imp_left hsame.trans)
  · exact .inr (.inl hscheduled)
  · exact absurd hrunner (hpicked task)
  · -- a task that is put away now leaves behind only wakes in progress
    rcases hs with hnotified | hscheduled | hlooking
    · exact nomatch hnotified.symm.trans hrunning
    · exact nomatch hscheduled.symm.trans hrunning
    · exact .inr (.inr hlooking)

end Traffic

end Header

end Troupe
