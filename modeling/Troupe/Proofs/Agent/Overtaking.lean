import Mathlib.Algebra.BigOperators.Fin
import Mathlib.Data.List.Induction
import Troupe.Proofs.Agent.Traffic

/-!
# Overtaking

A worker that finds its agent woken at the end of a turn makes the agent scheduled with a
plain store. If the agent was made done since the worker looked, the store overtakes that:
the agent is scheduled again, though it is done. Nothing else goes wrong with a header,
however the steps of wakes, of requests to finish and of the worker mix.

* `Kept.next` — where the task is, step by step, while nobody is overtaken;
* `isSafe_iff_not_overtaken` — a run is safe exactly if nobody is overtaken.
-/

namespace Troupe

namespace Header

variable {τ : Type}

/-! ## Places -/

/-- How many tasks a wake has. -/
def WakeCall.hand : WakeCall τ → Nat
  | queueing _ => 1
  | _ => 0

/-- Whether a wake is about to take the task out of the slot. -/
def WakeCall.takes : WakeCall τ → Nat
  | taking => 1
  | _ => 0

/-- Whether a request to finish is about to empty the slot. -/
def FinishCall.takes : FinishCall → Nat
  | taking => 1
  | storing => 0

namespace Runner

/-- How many tasks the worker has. -/
def hand : Runner τ → Nat
  | picked _ | running _ | loading _ | swapping _ _ | queueing _ | parking _ | closing _
  | emptying _ => 1
  | _ => 0

/-- Whether the worker is about to take the task out of the slot, to queue it. -/
def takes : Runner τ → Nat
  | retaking => 1
  | _ => 0

/-- Whether the worker is about to queue the task again. -/
def carries : Runner τ → Nat
  | queueing _ => 1
  | _ => 0

/-- Whether the worker is between calls of the header. -/
def isFree : Runner τ → Bool
  | away | picked _ | running _ | queueing _ => true
  | _ => false

/-- Whether the worker has the task and is done with none of the calls that end a turn. -/
def isInTurn : Runner τ → Bool
  | running _ | loading _ | swapping _ _ | parking _ | closing _ => true
  | _ => false

/-- Whether the worker will look into the slot if the agent is done. -/
def clears : Runner τ → Bool
  | sealing | overwriting | retaking | clearing | emptying _ => true
  | _ => false

end Runner

/-! ## What a step can do -/

/-- A wake leaves an agent done. -/
theorem WakeCall.phase_step {h : Header τ} (hdone : h.phase = .done) (isUp : Bool)
    (call : WakeCall τ) : (call.step h isUp).header.phase = .done := by
  cases call with
  | loading | taking => exact hdone
  | waking | notifying => simp [step, hdone]
  | queueing task =>
      cases isUp with
      | false => rfl
      | true => exact hdone

/-- A wake empties the slot or leaves it alone. -/
theorem WakeCall.slot_step (h : Header τ) (isUp : Bool) (call : WakeCall τ) :
    (call.step h isUp).header.slot = none ∨ (call.step h isUp).header.slot = h.slot := by
  cases call with
  | loading => exact .inr rfl
  | taking => exact .inl rfl
  | waking | notifying =>
      simp only [step]
      split
      · exact .inr rfl
      · exact .inr rfl
  | queueing task => cases isUp <;> exact .inr rfl

/-- A request to finish leaves an agent done. -/
theorem FinishCall.phase_step {h : Header τ} (hdone : h.phase = .done) (call : FinishCall) :
    (call.step h).header.phase = .done := by
  cases call with
  | storing => rfl
  | taking => exact hdone

/-- The worker leaves an agent done, except by its plain store. -/
theorem Runner.phase_step {h : Header τ} (hdone : h.phase = .done) (ending : TurnEnd)
    (runner : Runner τ) (hne : runner ≠ .overwriting) :
    (runner.step h ending).header.phase = .done := by
  cases runner with
  | overwriting => exact absurd rfl hne
  | picked task | sealing => simp [step, hdone]
  | swapping task woken => cases woken <;> simp [step, hdone]
  | closing task => rfl
  | _ => exact hdone

/-- A wake makes no copy of the task. -/
theorem WakeCall.copies_step (h : Header τ) (isUp : Bool) (call : WakeCall τ) :
    (call.step h isUp).header.slot.toList.length + (call.step h isUp).pushed.toList.length +
      ((call.step h isUp).next.toList.map hand).sum ≤ h.slot.toList.length + call.hand := by
  -- what a wake does on seeing a phase, it does without a task in hand
  have hseeing : ((seeing h.phase : Option (WakeCall τ)).toList.map hand).sum = 0 := by
    cases h.phase <;> rfl
  cases call with
  | loading => simp [step, hseeing, hand]
  | waking =>
      simp only [step]
      split
      · simp [hand]
      · simp [hseeing, hand]
  | notifying =>
      simp only [step]
      split
      · simp [hand]
      · simp [hseeing, hand]
  | taking => cases hslot : h.slot <;> simp [step, hslot, hand]
  | queueing task => cases isUp <;> simp [step, hand]

/-- A step of the worker makes no copy of the task. -/
theorem Runner.copies_step (h : Header τ) (ending : TurnEnd) (runner : Runner τ) :
    (runner.step h ending).header.slot.toList.length +
      (runner.step h ending).pushed.toList.length + (runner.step h ending).next.hand ≤
        h.slot.toList.length + runner.hand := by
  -- whatever the worker sees, it has the task in hand or has let go of it
  have hseeing : ∀ task : τ, (seeing task h.phase).hand ≤ 1 := by
    intro task
    cases h.phase with
    | running | notified => exact Nat.le_refl 1
    | _ => exact Nat.zero_le 1
  cases runner with
  | running task => cases ending <;> simp [step, hand]
  | loading task => exact Nat.add_le_add_left (hseeing task) _
  | swapping task woken =>
      unfold step
      dsimp only
      -- the swap succeeds and the task goes on to the queue, or is seen again
      by_cases hseen : h.phase = if woken then .notified else .running
      · rw [if_pos hseen]
        exact Nat.le_refl _
      · rw [if_neg hseen]
        exact Nat.add_le_add_left (hseeing task) _
  | picked task =>
      simp only [step]
      split
      · simp [hand]
      · simp [hand]
  | sealing =>
      simp only [step]
      split
      · simp [hand]
      · simp [hand]
      · simp [hand]
  | retaking => cases hslot : h.slot <;> simp [step, hslot, hand]
  | _ => simp [step, hand]

namespace Traffic

/-- How many tasks the wakes in progress have. -/
def held (s : Traffic τ) : Nat := (s.wakes.map WakeCall.hand).sum

/-- How many wakes are about to take the task out of the slot. -/
def takers (s : Traffic τ) : Nat := (s.wakes.map WakeCall.takes).sum

/-- How many requests to finish are about to empty the slot. -/
def clearers (s : Traffic τ) : Nat := (s.finishes.map FinishCall.takes).sum

/-- How often the task is there. -/
def copies (s : Traffic τ) : Nat :=
  s.header.slot.toList.length + s.queue.length + s.held + s.runner.hand

/-- How many calls are about to take the task out of the slot and to queue it, and how many
have it out already. -/
def carriers (s : Traffic τ) : Nat :=
  s.takers + s.held + s.runner.takes + s.runner.carries

/-- Where the task of a scheduled agent can be. -/
inductive IsDue (s : Traffic τ) : Prop where
  | queued (task : τ) (hqueue : s.queue = [task]) (hcarriers : s.carriers = 0)
  | carried (hcarriers : s.carriers = 1)
      (hslot : s.takers + s.runner.takes = s.header.slot.toList.length)
  | picked (task : τ) (hrunner : s.runner = .picked task) (hcarriers : s.carriers = 0)

/-- All calls have returned. -/
def IsQuiet (s : Traffic τ) : Prop := s.wakes = [] ∧ s.finishes = [] ∧ s.runner.isFree

/-- What a header promises at any moment. -/
structure IsSound (s : Traffic τ) : Prop where
  single : s.copies ≤ 1
  idle : s.header.phase = .idle → ∃ task, s.header.slot = some task
  scheduled : s.header.phase = .scheduled → s.IsDue
  cleared : s.header.phase = .done → s.IsQuiet → s.header.slot = none

/-- What a header promises along a run, from the first time its task is queued. -/
structure IsSafe (task : τ) (actions : List Action) : Prop where
  sound : ∀ pre, pre <+: actions → ((start task).run pre).IsSound
  absorbing : ∀ pre post, pre ++ post <+: actions → ((start task).run pre).header.phase = .done →
    ((start task).run (pre ++ post)).header.phase = .done

/-- At some point of a run the worker makes scheduled an agent that is done. -/
def Overtaken (task : τ) (actions : List Action) : Prop :=
  ∃ pre ending, pre ++ [.run ending] <+: actions ∧
    ((start task).run pre).runner = .overwriting ∧ ((start task).run pre).header.phase = .done

/-! ## Done is done -/

/-- A step that is not the worker's plain store leaves an agent done. -/
theorem phase_next {s : Traffic τ} (hdone : s.header.phase = .done) {action : Action}
    (hstore : ∀ ending, action = .run ending → s.runner ≠ .overwriting) :
    (s.next action).header.phase = .done := by
  -- only the worker and the calls touch the phase
  cases action with
  | pick =>
      simp only [next]
      split
      · exact hdone
      · exact hdone
  | run ending => exact s.runner.phase_step hdone ending (hstore ending rfl)
  | wake index =>
      simp only [next]
      split
      · exact hdone
      · next call _ => exact call.phase_step hdone s.isUp
  | finish index =>
      simp only [next]
      split
      · exact hdone
      · next call _ => exact call.phase_step hdone
  | callWake | callFinish | fall => exact hdone

/-- The plain store asks for nothing. -/
theorem phase_store {s : Traffic τ} (hrunner : s.runner = .overwriting) (ending : TurnEnd) :
    (s.next (.run ending)).header.phase = .scheduled := by
  simp only [next, hrunner, Runner.step]

/-! ## Where the task is -/

/-- The ways a header can be with the calls at it. -/
inductive Standing : Phase → Runner τ → Option τ → List τ → Nat → Nat → Prop where
  | parked (task : τ) : Standing .idle .away (some task) [] 0 0
  | queued (task : τ) : Standing .scheduled .away none [task] 0 0
  | claimed (task : τ) : Standing .scheduled .away (some task) [] 0 1
  | carried : Standing .scheduled .away none [] 1 0
  | retaking (task : τ) : Standing .scheduled .retaking (some task) [] 0 0
  | returning (task : τ) : Standing .scheduled (.queueing task) none [] 0 0
  | picked (task : τ) : Standing .scheduled (.picked task) none [] 0 0
  | inTurn {phase : Phase} {runner : Runner τ} (hphase : phase = .running ∨ phase = .notified)
      (hturn : runner.isInTurn) : Standing phase runner none [] 0 0
  | sealing {phase : Phase} (hphase : phase = .running ∨ phase = .notified) (task : τ) :
      Standing phase .sealing (some task) [] 0 0
  | overwriting (task : τ) : Standing .notified .overwriting (some task) [] 0 0
  | done {runner : Runner τ} {slot : Option τ} {queue : List τ} {held takers : Nat}
      (hsingle : slot.toList.length + queue.length + held + runner.hand ≤ 1) :
      Standing .done runner slot queue held takers

/-- The worker makes a step. -/
theorem Standing.run {h : Header τ} {runner : Runner τ} {queue : List τ} {held takers : Nat}
    (hs : Standing h.phase runner h.slot queue held takers) (ending : TurnEnd)
    (hstore : runner = .overwriting → h.phase ≠ .done) :
    Standing (runner.step h ending).header.phase (runner.step h ending).next
      (runner.step h ending).header.slot (queue ++ (runner.step h ending).pushed.toList)
      held takers := by
  obtain ⟨phase, slot, isTerminating⟩ := h
  dsimp only at hs hstore
  -- by where the task is: the worker carries it along its way, or is away and does nothing
  cases hs with
  | parked task => exact .parked task
  | queued task => exact .queued task
  | claimed task => exact .claimed task
  | carried => exact .carried
  | retaking task => exact .returning task
  | returning task => exact .queued task
  | picked task => exact .inTurn (.inl rfl) rfl
  | overwriting task => exact .retaking task
  | sealing hphase task =>
      rcases hphase with rfl | rfl
      · exact .parked task
      · exact .overwriting task
  | inTurn hphase hturn =>
      cases runner with
      | running task =>
          cases ending with
          | _ => exact .inTurn hphase rfl
      | loading task =>
          rcases hphase with rfl | rfl
          · exact .inTurn (.inl rfl) rfl
          · exact .inTurn (.inr rfl) rfl
      | swapping task woken =>
          -- the swap succeeds if the phase is still as seen, otherwise it is tried again
          rcases hphase with rfl | rfl
          · cases woken with
            | false => exact .returning task
            | true => exact .inTurn (.inl rfl) rfl
          · cases woken with
            | false => exact .inTurn (.inr rfl) rfl
            | true => exact .returning task
      | parking task => exact .sealing hphase task
      | closing task => exact .done (Nat.le_refl 1)
      | _ => exact nomatch hturn
  | done hsingle =>
      -- done: all there is to keep is that there is one task at most
      have hdone : (⟨.done, slot, isTerminating⟩ : Header τ).phase = .done := rfl
      have hcopies := runner.copies_step ⟨.done, slot, isTerminating⟩ ending
      have hphase := runner.phase_step hdone ending fun hover => hstore hover rfl
      rw [hphase]
      refine .done ?_
      rw [List.length_append]
      dsimp only at hcopies
      omega

/-- A wake that has seen a phase has no task yet and no claim to one. -/
theorem seeing_sums (phase : Phase) :
    ((WakeCall.seeing phase : Option (WakeCall τ)).toList.map WakeCall.hand).sum = 0 ∧
      ((WakeCall.seeing phase : Option (WakeCall τ)).toList.map WakeCall.takes).sum = 0 := by
  cases phase with
  | _ => exact ⟨rfl, rfl⟩

/-- A wake makes a step; `rest` and `claims` are what the other wakes have and claim. -/
theorem Standing.wake {h : Header τ} {runner : Runner τ} {queue : List τ}
    {held takers rest claims : Nat} (hs : Standing h.phase runner h.slot queue held takers)
    (isUp : Bool) (call : WakeCall τ) (hheld : held = rest + call.hand)
    (htakers : takers = claims + call.takes) :
    Standing (call.step h isUp).header.phase runner (call.step h isUp).header.slot
      (queue ++ (call.step h isUp).pushed.toList)
      (rest + ((call.step h isUp).next.toList.map WakeCall.hand).sum)
      (claims + ((call.step h isUp).next.toList.map WakeCall.takes).sum) := by
  have hcopies := call.copies_step h isUp
  obtain ⟨hhand, htakes⟩ := seeing_sums (τ := τ) h.phase
  obtain ⟨phase, slot, isTerminating⟩ := h
  dsimp only at hs hcopies hhand htakes
  -- a wake that looks at the phase and goes on, or returns, changes nothing
  have hlooked : Standing phase runner slot (queue ++ [])
      (held + ((WakeCall.seeing phase : Option (WakeCall τ)).toList.map WakeCall.hand).sum)
      (takers + ((WakeCall.seeing phase : Option (WakeCall τ)).toList.map WakeCall.takes).sum) := by
    rw [hhand, htakes, List.append_nil]
    exact hs
  -- on an agent that is done a wake may still carry the task, and nothing more is known
  by_cases hdone : phase = .done
  · subst hdone
    rw [call.phase_step rfl isUp]
    refine .done ?_
    rw [List.length_append]
    cases hs with
    | done hsingle => omega
    | inTurn hphase _ | sealing hphase _ => simp at hphase
  · cases call with
    | loading =>
        obtain rfl : held = rest := hheld
        obtain rfl : takers = claims := htakers
        exact hlooked
    | waking =>
        obtain rfl : held = rest := hheld
        obtain rfl : takers = claims := htakers
        unfold WakeCall.step
        dsimp only
        -- waking an idle agent claims the task in its slot
        by_cases hidle : phase = .idle
        · subst hidle
          rw [if_pos rfl]
          cases hs with
          | parked task => exact .claimed task
          | inTurn hphase _ | sealing hphase _ => simp at hphase
        · rw [if_neg hidle]
          exact hlooked
    | notifying =>
        obtain rfl : held = rest := hheld
        obtain rfl : takers = claims := htakers
        unfold WakeCall.step
        dsimp only
        -- notifying a running agent leaves the task with the worker
        by_cases hrunning : phase = .running
        · subst hrunning
          rw [if_pos rfl]
          cases hs with
          | inTurn _ hturn => exact .inTurn (.inr rfl) hturn
          | sealing _ task => exact .sealing (.inr rfl) task
        · rw [if_neg hrunning]
          exact hlooked
    | taking =>
        obtain rfl : held = rest := hheld
        -- who is about to take is the one that made the claim
        have hclaims : takers = claims + 1 := htakers
        cases hs with
        | claimed task =>
            obtain rfl : claims = 0 := by omega
            exact .carried
        | done _ => exact absurd rfl hdone
        | _ => omega
    | queueing task =>
        obtain rfl : takers = claims := htakers
        -- who is about to queue is the one that carries
        have hrest : held = rest + 1 := hheld
        cases hs with
        | carried =>
            obtain rfl : rest = 0 := by omega
            cases isUp with
            | true => exact .queued task
            | false => exact .done (by simp [WakeCall.step, Runner.hand])
        | done _ => exact absurd rfl hdone
        | _ => omega

/-- The task is in one place at most. -/
theorem Standing.single {phase : Phase} {runner : Runner τ} {slot : Option τ} {queue : List τ}
    {held takers : Nat} (hs : Standing phase runner slot queue held takers) :
    slot.toList.length + queue.length + held + runner.hand ≤ 1 := by
  cases hs with
  | done hsingle => exact hsingle
  | inTurn _ hturn =>
      cases runner with
      | running _ | loading _ | swapping _ _ | parking _ | closing _ => exact Nat.le_refl 1
      | _ => exact nomatch hturn
  | _ => exact Nat.le_refl 1

/-- A worker picks up a task. -/
theorem Standing.pick {phase : Phase} {slot : Option τ} {task : τ} {rest : List τ}
    {held takers : Nat} (hs : Standing phase .away slot (task :: rest) held takers) :
    Standing phase (.picked task) slot rest held takers := by
  have hsingle := hs.single
  cases hs with
  | queued _ => exact .picked task
  | done _ =>
      refine .done ?_
      simp only [List.length_cons, Runner.hand] at hsingle ⊢
      omega

/-- The calls at a header, and one of them that goes on or returns. -/
theorem sum_replace {γ : Type} (size : γ → Nat) {calls : List γ} {index : Nat} {call : γ}
    (h : calls[index]? = some call) : ∃ rest,
      (calls.map size).sum = rest + size call ∧
        ∀ next : Option γ, ((replace calls index next).map size).sum =
          rest + (next.toList.map size).sum := by
  obtain ⟨hlt, hcall⟩ := List.getElem?_eq_some_iff.mp h
  refine ⟨((calls.take index).map size).sum + ((calls.drop (index + 1)).map size).sum, ?_, ?_⟩
  · have hsplit : calls = calls.take index ++ call :: calls.drop (index + 1) := by
      rw [← hcall, ← List.drop_eq_getElem_cons hlt, List.take_append_drop]
    conv_lhs => rw [hsplit]
    rw [List.map_append, List.map_cons, List.sum_append, List.sum_cons]
    omega
  · intro next
    rw [replace, List.map_append, List.map_append, List.sum_append, List.sum_append]
    omega

/-- The header is as the calls at it know it to be, and an agent that is done has nothing in
its slot that nobody will take away. -/
structure Kept (s : Traffic τ) : Prop where
  standing : Standing s.header.phase s.runner s.header.slot s.queue s.held s.takers
  unclaimed : s.header.phase ≠ .done → s.clearers = 0
  cleared : s.header.phase = .done → s.header.slot = none ∨ 0 < s.clearers ∨ s.runner.clears

theorem kept_start (task : τ) : (start task).Kept :=
  ⟨.queued task, fun _ => rfl, fun hdone => nomatch hdone⟩

variable {s : Traffic τ}

theorem Kept.pick (hs : s.Kept) : (s.next .pick).Kept := by
  simp only [next]
  split
  · next task rest haway hqueue =>
      have hstanding := hs.standing
      rw [haway, hqueue] at hstanding
      refine ⟨hstanding.pick, hs.unclaimed, fun hdone => ?_⟩
      have hcleared := hs.cleared hdone
      rw [haway] at hcleared
      exact hcleared
  · exact hs

/-- What the worker leaves in the slot of an agent that is done, it will clear. -/
theorem cleared_run {h : Header τ} {runner : Runner τ} (ending : TurnEnd)
    (hne : runner = .overwriting → h.phase ≠ .done)
    (hcleared : h.phase = .done → h.slot = none ∨ runner.clears)
    (hdone : (runner.step h ending).header.phase = .done) :
    (runner.step h ending).header.slot = none ∨ (runner.step h ending).next.clears := by
  obtain ⟨phase, slot, isTerminating⟩ := h
  dsimp only at hne hcleared
  -- the worker sees that the agent is done at its next look, and clears the slot then
  cases runner with
  | overwriting => exact nomatch hdone
  | retaking | clearing | emptying _ => exact .inl rfl
  | parking _ | closing _ => exact .inr rfl
  | away | queueing _ => exact hcleared hdone
  | loading task =>
      obtain rfl : phase = .done := hdone
      exact hcleared rfl
  | running task =>
      obtain hslot | hnot := hcleared hdone
      · exact .inl hslot
      · exact nomatch hnot
  | picked task =>
      cases phase with
      | done => exact hcleared rfl
      | _ => exact nomatch hdone
  | sealing =>
      cases phase with
      | done => exact .inr rfl
      | _ => exact nomatch hdone
  | swapping task woken =>
      cases phase with
      | done => cases woken <;> exact hcleared rfl
      | _ => cases woken <;> exact nomatch hdone

/-- A step of the worker, except for the plain store on an agent that is done. -/
theorem Kept.run (hs : s.Kept) (ending : TurnEnd)
    (hstore : s.runner = .overwriting → s.header.phase ≠ .done) :
    (s.next (.run ending)).Kept := by
  refine ⟨hs.standing.run ending hstore, fun hphase => hs.unclaimed fun hdone => ?_,
    fun hdone => ?_⟩
  · exact hphase (s.runner.phase_step hdone ending fun hover => hstore hover hdone)
  -- a request to finish will empty the slot, or the worker will
  · by_cases hclearers : 0 < s.clearers
    · exact .inr (.inl hclearers)
    · have hcleared : s.header.phase = .done → s.header.slot = none ∨ s.runner.clears :=
        fun hdone => (hs.cleared hdone).imp_right fun h => h.resolve_left hclearers
      exact (cleared_run ending hstore hcleared hdone).imp_right .inr

/-- A wake that has the task, or is about to take it, finds the slot as it claims. -/
theorem Kept.wake (hs : s.Kept) (index : Nat) : (s.next (.wake index)).Kept := by
  simp only [next]
  split
  · exact hs
  · next call hcall =>
      obtain ⟨rest, hheld, hheld'⟩ := sum_replace WakeCall.hand hcall
      obtain ⟨claims, htakers, htakers'⟩ := sum_replace WakeCall.takes hcall
      refine ⟨?_, fun hphase => hs.unclaimed fun hdone => ?_, fun hdone => ?_⟩
      · have hstanding := hs.standing.wake s.isUp call hheld htakers
        rw [← hheld', ← htakers'] at hstanding
        exact hstanding
      · exact hphase (call.phase_step hdone s.isUp)
      · by_cases hbefore : s.header.phase = .done
        · rcases call.slot_step s.header s.isUp with hslot | hslot
          · exact .inl hslot
          · exact (hs.cleared hbefore).imp_left hslot.trans
        · -- a wake makes an agent done only with the task of that agent in its hands
          cases call with
          | loading => exact absurd hdone hbefore
          | taking => exact .inl rfl
          | waking =>
              by_cases hidle : s.header.phase = .idle
              · simp [WakeCall.step, hidle] at hdone
              · simp [WakeCall.step, hidle, hbefore] at hdone
          | notifying =>
              by_cases hrunning : s.header.phase = .running
              · simp [WakeCall.step, hrunning] at hdone
              · simp [WakeCall.step, hrunning, hbefore] at hdone
          | queueing task =>
              have hone : s.held = rest + 1 := hheld
              -- the wake holds the only copy, so the slot is empty
              have hslot : s.header.slot = none := by
                have hsingle := hs.standing.single
                cases hs' : s.header.slot with
                | none => rfl
                | some other =>
                    rw [hs', Option.toList_some, List.length_singleton] at hsingle
                    omega
              rcases WakeCall.slot_step s.header s.isUp (.queueing task) with hsame | hsame
              · exact .inl hsame
              · exact .inl (hsame.trans hslot)

/-- A request to finish makes a step. -/
theorem Kept.finish (hs : s.Kept) (index : Nat) : (s.next (.finish index)).Kept := by
  have hsingle := hs.standing.single
  simp only [next]
  split
  · exact hs
  · next call hcall =>
      obtain ⟨rest, hclearers, hclearers'⟩ := sum_replace FinishCall.takes hcall
      cases call with
      | storing =>
          have hmore : 0 < ((replace s.finishes index (some .taking)).map FinishCall.takes).sum := by
            rw [hclearers']
            exact Nat.succ_pos rest
          refine ⟨.done ?_, fun hphase => absurd rfl hphase, fun _ => .inr (.inl hmore)⟩
          simpa [FinishCall.step, held] using hsingle
      | taking =>
          -- it stored the phase before it came to empty the slot
          have hdone : s.header.phase = .done := by
            by_contra hphase
            have hnone : (s.finishes.map FinishCall.takes).sum = 0 := hs.unclaimed hphase
            simp only [FinishCall.takes] at hclearers
            omega
          refine ⟨?_, fun hphase => absurd hdone hphase, fun _ => .inl rfl⟩
          show Standing s.header.phase s.runner none (s.queue ++ []) s.held s.takers
          rw [hdone, List.append_nil]
          refine .done ?_
          simp only [Option.toList_none, List.length_nil]
          omega

/-- All that can happen, except for that store, leaves the header as the calls know it. -/
theorem Kept.next (hs : s.Kept) (action : Action)
    (hstore : ∀ ending, action = .run ending → s.runner = .overwriting → s.header.phase ≠ .done) :
    (s.next action).Kept := by
  cases action with
  | pick => exact hs.pick
  | run ending => exact hs.run ending (hstore ending rfl)
  | wake index => exact hs.wake index
  | finish index => exact hs.finish index
  | fall => exact ⟨hs.standing, hs.unclaimed, hs.cleared⟩
  | callWake =>
      -- a wake that begins has no task and no claim
      have hsums : (s.next .callWake).held = s.held ∧ (s.next .callWake).takers = s.takers := by
        simp [Traffic.next, held, takers, WakeCall.hand, WakeCall.takes]
      refine ⟨?_, hs.unclaimed, hs.cleared⟩
      rw [hsums.1, hsums.2]
      exact hs.standing
  | callFinish =>
      have hsum : (s.next .callFinish).clearers = s.clearers := by
        simp [Traffic.next, clearers, FinishCall.takes]
      exact ⟨hs.standing, hsum ▸ hs.unclaimed, hsum ▸ hs.cleared⟩

/-! ## What the header promises -/

theorem Standing.of_idle {runner : Runner τ} {slot : Option τ} {queue : List τ}
    {held takers : Nat} (hs : Standing .idle runner slot queue held takers) :
    ∃ task, slot = some task := by
  cases hs with
  | parked task => exact ⟨task, rfl⟩
  | inTurn hphase _ | sealing hphase _ => simp at hphase

/-- The task of a scheduled agent is queued, or on its way there, or just picked up. -/
theorem Kept.isDue (hs : s.Kept) (hphase : s.header.phase = .scheduled) : s.IsDue := by
  have hstanding := hs.standing
  rw [hphase] at hstanding
  generalize hrunner : s.runner = runner at hstanding
  generalize hslot : s.header.slot = slot at hstanding
  generalize hqueue : s.queue = queue at hstanding
  generalize hheld : s.held = held at hstanding
  generalize htakers : s.takers = takers at hstanding
  have hcarriers : s.carriers = takers + held + runner.takes + runner.carries := by
    rw [carriers, hrunner, hheld, htakers]
  -- each way for a scheduled agent to stand names the place of its task
  cases hstanding with
  | queued task => exact .queued task hqueue hcarriers
  | claimed task | carried | retaking task | returning task =>
      refine .carried hcarriers ?_
      rw [htakers, hrunner, hslot]
      rfl
  | picked task => exact .picked task hrunner hcarriers
  | inTurn hphase _ | sealing hphase _ => simp at hphase

/-- A header that is as the calls know it keeps its promises. -/
theorem Kept.isSound (hs : s.Kept) : s.IsSound := by
  constructor
  · exact hs.standing.single
  · intro hphase
    exact (hphase ▸ hs.standing).of_idle
  · exact hs.isDue
  · rintro hdone ⟨-, hfinishes, hfree⟩
    have hclearers : s.clearers = 0 := by rw [clearers, hfinishes]; rfl
    -- nobody is about to clear the slot, so it is clear
    rcases hs.cleared hdone with hslot | hclearing | hclears
    · exact hslot
    · omega
    · generalize s.runner = runner at hfree hclears
      cases runner with
      | away | picked _ | running _ | queueing _ => exact nomatch hclears
      | _ => exact nomatch hfree

/-- While nobody is overtaken, the header is as the calls at it know it to be. -/
theorem kept_run {task : τ} {actions : List Action} (hnever : ¬ Overtaken task actions)
    (pre : List Action) (hpre : pre <+: actions) : ((start task).run pre).Kept := by
  -- by induction on how far the run has got, at its end
  induction pre using List.reverseRecOn with
  | nil => exact kept_start task
  | append_singleton before action ih =>
      have hbefore := ih ((List.prefix_append before [action]).trans hpre)
      rw [run_append]
      refine hbefore.next action ?_
      rintro ending rfl hrunner hdone
      exact hnever ⟨before, ending, hpre, hrunner, hdone⟩

/-- While nobody is overtaken, done is for good. -/
theorem phase_run {task : τ} {actions : List Action} (hnever : ¬ Overtaken task actions)
    (pre post : List Action) (hpre : pre ++ post <+: actions)
    (hdone : ((start task).run pre).header.phase = .done) :
    ((start task).run (pre ++ post)).header.phase = .done := by
  induction post using List.reverseRecOn with
  | nil => rwa [List.append_nil]
  | append_singleton between action ih =>
      rw [← List.append_assoc] at hpre ⊢
      have hbetween := ih ((List.prefix_append _ [action]).trans hpre)
      rw [run_append]
      refine phase_next hbetween ?_
      rintro ending rfl hrunner
      exact hnever ⟨pre ++ between, ending, hpre, hrunner, hbetween⟩

/-- However wakes, requests to finish and the worker with the task mix their steps, the header
keeps its promises exactly if the worker never makes scheduled an agent that is done. -/
theorem isSafe_iff_not_overtaken (task : τ) (actions : List Action) :
    IsSafe task actions ↔ ¬ Overtaken task actions := by
  constructor
  · rintro hsafe ⟨pre, ending, hpre, hrunner, hdone⟩
    -- the store takes a done agent back to scheduled, which no promise survives
    have hstill := hsafe.absorbing pre [.run ending] hpre hdone
    rw [run_append] at hstill
    exact nomatch (phase_store hrunner ending).symm.trans hstill
  · intro hnever
    constructor
    · exact fun pre hpre => (kept_run hnever pre hpre).isSound
    · exact phase_run hnever

/-- A wake comes during a turn that ends waiting, and a request to finish comes between the
worker's look at the phase and its store: when all calls have returned, the agent is
scheduled for good, and its task is nowhere. -/
theorem overtaken_between_look_and_store :
    let actions : List Action := [.pick, .run .wait, .callWake, .wake 0, .wake 0, .run .wait,
      .run .wait, .run .wait, .callFinish, .finish 0, .finish 0, .run .wait, .run .wait]
    let s := (start ()).run actions
    ¬ IsSafe () actions ∧ s.IsQuiet ∧ s.header.phase = .scheduled ∧ s.copies = 0 := by
  refine ⟨fun hsafe => ?_, ⟨rfl, rfl, rfl⟩, rfl, rfl⟩
  have hstill := hsafe.absorbing [.pick, .run .wait, .callWake, .wake 0, .wake 0, .run .wait,
    .run .wait, .run .wait, .callFinish, .finish 0, .finish 0] [.run .wait, .run .wait]
    (List.prefix_refl _) rfl
  exact nomatch hstill

end Traffic

end Header

end Troupe
