import Troupe.Proofs.Timer.Upkeep

/-!
# Punctuality

Whoever registers with a running timer is woken once: by the registration itself if the deadline
is over or the timer is shut down, and otherwise by the first pass that comes at or after the
deadline, or sees that the timer is shut down. That holds however registrations, passes and
requests to shut down mix.

* `fires_bells`, `fires_due`, `ends` — a thread that goes on gets things done;
* `timer_punctual` — all that the service promises.
-/

namespace Troupe

namespace Timer.Service

variable {ω : Type} {s : Service ω}

/-! ## The thread goes on -/

/-- So many steps of the thread, and of nobody else. -/
def goOnFor (s : Service ω) (steps : Nat) : Service ω := s.run (List.replicate steps .loop)

theorem goOnFor_zero (s : Service ω) : s.goOnFor 0 = s := rfl

theorem goOnFor_succ (s : Service ω) (steps : Nat) : s.goOnFor (steps + 1) = s.goOn.goOnFor steps :=
  rfl

theorem goOnFor_add (s : Service ω) (steps more : Nat) :
    s.goOnFor (steps + more) = (s.goOnFor steps).goOnFor more := by
  rw [goOnFor, List.replicate_add, run, List.foldl_append]
  rfl

/-- What the thread has to fire, it fires in as many steps. -/
theorem goOnFor_awake (s : Service ω) {bells : List (Bell ω)} (hloop : s.loop = .awake bells) :
    s.goOnFor bells.length = { s with loop := .awake [], log := s.log ++ bells.map .fired } := by
  induction bells generalizing s with
  | nil => simp [goOnFor_zero, ← hloop]
  | cons bell rest ih =>
      have hstep : s.goOn = { s with loop := .awake rest, log := s.log ++ [.fired bell] } := by
        simp only [goOn, hloop]
      rw [List.length_cons, goOnFor_succ, hstep, ih _ rfl]
      simp

theorem firedOf_append_fired (log : List (Event ω)) (bells : List (Bell ω)) :
    firedOf (log ++ bells.map .fired) = firedOf log ++ bells := by
  rw [firedOf, List.filterMap_append, List.filterMap_map]
  congr 1
  exact List.filterMap_some

/-- What the thread has in hand it fires. -/
theorem fires_bells {bell : Bell ω} (hbell : bell ∈ s.loop.bells) :
    ∃ steps, bell ∈ firedOf (s.goOnFor steps).log := by
  cases hloop : s.loop with
  | awake bells =>
      rw [hloop, Loop.bells] at hbell
      refine ⟨bells.length, ?_⟩
      rw [s.goOnFor_awake hloop, firedOf_append_fired]
      exact List.mem_append_right _ hbell
  | asleep | ended =>
      rw [hloop] at hbell
      cases hbell

/-- A thread that is awake passes over the alarms next, when it has fired what it has. -/
theorem goOnFor_pass {bells : List (Bell ω)} (hloop : s.loop = .awake bells) :
    s.goOnFor (bells.length + 1) =
      pass { s with loop := .awake [], log := s.log ++ bells.map .fired } := by
  rw [goOnFor_add, s.goOnFor_awake hloop]
  rfl

/-- A thread that is awake fires what is due at its next pass. -/
theorem fires_due_of_awake {bells : List (Bell ω)} (hloop : s.loop = .awake bells)
    {a : Alarm (Bell ω)} (ha : a ∈ s.timer.alarms) (hdue : s.timer.isDue s.now a = true) :
    ∃ steps, a.waker ∈ firedOf (s.goOnFor steps).log := by
  have hbell : a.waker ∈ (s.goOnFor (bells.length + 1)).loop.bells := by
    rw [goOnFor_pass hloop, pass, Loop.bells_after]
    exact List.mem_map_of_mem (mem_due.mpr ⟨ha, hdue⟩)
  obtain ⟨steps, hfired⟩ := fires_bells hbell
  exact ⟨bells.length + 1 + steps, by rwa [goOnFor_add]⟩

/-- An alarm that is due fires when the thread goes on, unless somebody has yet to notify it. -/
theorem Upkeep.fires_due (hs : s.Upkeep) (hquiet : ¬ s.IsHailing) {a : Alarm (Bell ω)}
    (ha : a ∈ s.timer.alarms) (hdue : s.timer.isDue s.now a = true) :
    ∃ steps, a.waker ∈ firedOf (s.goOnFor steps).log := by
  -- an ended thread has nothing waiting; one asleep has its sleep to end first
  cases hloop : s.loop with
  | awake bells => exact fires_due_of_awake hloop ha hdue
  | ended => exact nomatch (hs.ended hloop).2 ▸ ha
  | asleep deadline =>
      -- it sleeps until the first deadline, and that is over
      obtain ⟨hopen, rfl⟩ := (hs.watchful deadline hloop).resolve_left hquiet
      have hover : a.deadline ≤ s.now := by
        refine (isDue_iff.mp hdue).resolve_right ?_
        rw [hopen]
        exact Bool.false_ne_true
      cases hhead : s.timer.head? with
      | none => exact nomatch head?_eq_none_iff.mp hhead ▸ ha
      | some first =>
          have hfirst : first.deadline ≤ s.now :=
            Nat.le_trans (Alarm.deadline_le_of_spot_le (spot_le_of_head? hhead ha)) hover
          have hstep : s.goOn = { s with loop := .awake [] } := by
            simp only [goOn, hloop, hhead, Option.map_some, if_pos hfirst]
          obtain ⟨steps, hfired⟩ := fires_due_of_awake (s := { s with loop := .awake [] }) rfl ha hdue
          exact ⟨steps + 1, by rwa [goOnFor_succ, hstep]⟩

theorem loop_pass_of_empty (hshut : s.timer.isShut = true) (hempty : s.timer.alarms = []) :
    s.pass.loop = .ended := by
  have hnone : s.timer.due s.now = [] := due_eq_nil fun a ha => nomatch hempty ▸ ha
  have hshut' : (s.timer.pass s.now).state.isShut = true := hshut
  simp [pass, Loop.after, hnone, hshut']

/-- The second pass over a timer that was shut down finds nothing, and the thread ends. -/
theorem ends_of_awake (hshut : s.timer.isShut = true) {bells : List (Bell ω)}
    (hloop : s.loop = .awake bells) : ∃ steps, (s.goOnFor steps).loop = .ended := by
  have hpass := goOnFor_pass hloop
  -- the first pass leaves nothing; it may have taken something, which has to be fired first
  have hempty : (s.goOnFor (bells.length + 1)).timer.alarms = [] := by
    rw [hpass]
    refine List.filter_eq_nil_iff.mpr fun a _ => ?_
    have hdue : s.timer.isDue s.now a = true := isDue_iff.mpr (.inr hshut)
    simp [hdue]
  have hstill : (s.goOnFor (bells.length + 1)).timer.isShut = true := by
    rw [hpass]
    exact hshut
  cases hafter : (s.goOnFor (bells.length + 1)).loop with
  | ended => exact ⟨_, hafter⟩
  | asleep deadline =>
      rw [hpass, pass, Loop.after] at hafter
      have hshut' : (s.timer.pass s.now).state.isShut = true := hshut
      simp only [hshut', if_true] at hafter
      split at hafter <;> cases hafter
  | awake due =>
      refine ⟨bells.length + 1 + (due.length + 1), ?_⟩
      rw [goOnFor_add, goOnFor_pass hafter]
      exact loop_pass_of_empty hstill hempty

/-- A timer that is shut down has its thread end. -/
theorem Upkeep.ends (hs : s.Upkeep) (hquiet : ¬ s.IsHailing) (hshut : s.timer.isShut = true) :
    ∃ steps, (s.goOnFor steps).loop = .ended := by
  cases hloop : s.loop with
  | awake bells => exact ends_of_awake hshut hloop
  | ended => exact ⟨0, hloop⟩
  | asleep deadline =>
      obtain ⟨hopen, -⟩ := (hs.watchful deadline hloop).resolve_left hquiet
      exact absurd hshut (Bool.eq_false_iff.mp hopen)

/-! ## Registrations go on -/

/-- A registration that has to fire its waker itself fires it next. -/
theorem answers {index : Nat} {bell : Bell ω} (hcall : s.calls[index]? = some (.ringing bell)) :
    (s.next (.register index)).log = s.log ++ [.answered bell] := by
  simp only [next, hcall, RegisterCall.step]

/-- A registration that brings the earliest deadline goes on to notify the thread. -/
theorem goes_on_to_notify {index : Nat} {deadline seen : Instant} {bell : Bell ω}
    (hcall : s.calls[index]? = some (.locking deadline seen bell))
    (hopen : s.timer.isShut = false) (hfirst : ∀ a ∈ s.timer.alarms, deadline < a.deadline) :
    (s.next (.register index)).calls[index]? = some .notifying := by
  obtain ⟨hlt, -⟩ := List.getElem?_eq_some_iff.mp hcall
  have hearliest : s.timer.isEarliest deadline = true := isEarliest_iff.mpr hfirst
  simp only [next, hcall, RegisterCall.step, hopen, hearliest, if_true]
  simp [Header.Traffic.replace, Nat.min_eq_left (Nat.le_of_lt hlt)]

theorem next_notifying {index : Nat} (hcall : s.calls[index]? = some .notifying) :
    (s.next (.register index)).loop = s.loop.notified := by
  simp only [next, hcall, RegisterCall.step, if_true]

/-! ## The promise -/

/-- What the service promises. -/
structure IsPunctual (s : Service ω) : Prop where
  numbered : (calledOf s.log).map (·.call) = List.range s.called
  /-- Every waker that came is in one place: in its registration, in the timer, in the hands of
  the thread, or fired. -/
  accounted : (s.calls.filterMap RegisterCall.bell? ++ s.timer.alarms.map (·.waker) ++
    s.loop.bells ++ answeredOf s.log ++ firedOf s.log).Perm (calledOf s.log)
  follows : Throughout Rule s.log
  /-- A registration fires what was overdue or refused, and nothing else. -/
  kept : (s.calls.filterMap RegisterCall.ringing? ++ answeredOf s.log).Perm (keptOf s.log)
  /-- The thread fires what its passes took, in that order. -/
  fired : firedOf s.log ++ s.loop.bells = (takenOf s.log).map (·.waker)
  waiting : ∀ a, a ∈ s.timer.alarms ↔ IsWaiting s.log a
  /-- The first alarm is at the top of a heap, which hands out its greatest element. -/
  greatest : ∀ first, s.timer.head? = some first → ∀ a ∈ s.timer.alarms,
    (a.heapOrder first).isLE = true
  /-- What comes off the top, one after another, makes a pass. -/
  popped : ∀ tries, s.timer.alarms.length ≤ tries →
    popDue s.now tries s.timer = (s.timer.due s.now, (s.timer.pass s.now).state)
  stopped : .stopped ∈ s.log → s.timer.alarms = [] ∧ s.loop = .ended
  notifies : ∀ index deadline seen bell, s.calls[index]? = some (.locking deadline seen bell) →
    s.timer.isShut = false → (∀ a ∈ s.timer.alarms, deadline < a.deadline) →
    (s.next (.register index)).calls[index]? = some .notifying
  notified : ∀ index, s.calls[index]? = some .notifying →
    (s.next (.register index)).loop = s.loop.notified
  watchful : ∀ deadline, s.loop = .asleep deadline →
    s.IsHailing ∨ s.timer.isShut = false ∧ deadline = s.timer.head?.map (·.deadline)
  /-- What the thread has in hand, and what is due, fires when the thread goes on. -/
  fires_bells : ∀ bell ∈ s.loop.bells, ∃ steps, bell ∈ firedOf (s.goOnFor steps).log
  fires_due : ¬ s.IsHailing → ∀ a ∈ s.timer.alarms, s.timer.isDue s.now a = true →
    ∃ steps, a.waker ∈ firedOf (s.goOnFor steps).log
  ends : ¬ s.IsHailing → s.timer.isShut = true → ∃ steps, (s.goOnFor steps).loop = .ended
  answers : ∀ index bell, s.calls[index]? = some (.ringing bell) →
    (s.next (.register index)).log = s.log ++ [.answered bell]
  /-- Without interference a registration is that of the timer. -/
  registers : ∀ deadline w, let o := s.timer.register s.now deadline ⟨s.called, w⟩
    ∃ steps events,
      s.run (.callRegister deadline w :: List.replicate steps (.register s.calls.length)) =
        { s with
          timer := o.state
          loop := if o.answer then s.loop.notified else s.loop
          called := s.called + 1
          log := s.log ++ events } ∧
      (events.filterMap Event.answered?).map .wake = o.effects

/-- A timer that was started keeps its promise, whatever is registered, however often the thread
passes, and whenever it is shut down. -/
theorem timer_punctual (now : Instant) (actions : List (Action ω)) :
    ((start now).run actions).IsPunctual := by
  -- everything is read off the upkeep of the service
  have hs : ((start now).run actions).Upkeep := run_upkeep now actions
  exact {
    numbered := hs.calls_eq
    accounted := hs.accounted
    follows := hs.follows
    kept := hs.kept
    fired := hs.fired
    waiting := hs.waiting
    greatest := fun _ hfirst _ ha => head?_greatest hfirst ha
    popped := fun _ henough => hs.numbered.popDue_eq_pass _ henough
    stopped := fun hstopped => ⟨(hs.ended (hs.stopped hstopped)).2, hs.stopped hstopped⟩
    notifies := fun _ _ _ _ hcall hopen hfirst => goes_on_to_notify hcall hopen hfirst
    notified := fun _ hcall => next_notifying hcall
    watchful := hs.watchful
    fires_bells := fun _ hbell => Service.fires_bells hbell
    fires_due := fun hquiet _ ha hdue => hs.fires_due hquiet ha hdue
    ends := hs.ends
    answers := fun _ _ hcall => Service.answers hcall
    registers := register_alone _ }

/-- Of three alarms the later one was registered first and the other two have one deadline. -/
example :
    firedOf ((start ⟨0⟩ : Service Nat).run
      [.callRegister ⟨9⟩ 0, .callRegister ⟨4⟩ 1, .callRegister ⟨4⟩ 2,
        .register 2, .register 2, .register 1, .register 1, .register 0, .register 0,
        .elapse ⟨20⟩, .loop, .loop, .loop, .loop]).log = [⟨2, 2⟩, ⟨1, 1⟩, ⟨0, 0⟩] := by
  cbv

end Timer.Service

end Troupe
