import Mathlib.Data.List.Basic
import Mathlib.Data.List.Perm.Basic
import Troupe.Proofs.History
import Troupe.Proofs.Timer.Service

/-!
# What a timer keeps up

The log of a service tells what was registered, what was taken out of the timer and what was
fired. Here is read off it which alarms wait, and every event is held to a rule that speaks of
the log before it only. Then come the invariants, each kept by every change of the service.

* `Upkeep` — all that the service keeps up;
* `run_upkeep` — a service that was started keeps it up, whatever happens.
-/

namespace Troupe

namespace Timer

variable {ω : Type}

open Header.Traffic (replace mem_replace mem_replace_some mem_replace_of_ne exists_replace)

/-! ## Reading the log -/

namespace Event

@[simp] def called? : Event ω → Option (Bell ω)
  | called bell _ => some bell
  | _ => none

@[simp] def booked? : Event ω → Option (Alarm (Bell ω))
  | booked alarm _ => some alarm
  | _ => none

/-- The waker that a registration has to fire itself. -/
@[simp] def kept? : Event ω → Option (Bell ω)
  | overdue bell _ _ | refused bell _ _ => some bell
  | _ => none

@[simp] def fired? : Event ω → Option (Bell ω)
  | fired bell => some bell
  | _ => none

/-- The alarms taken out of the timer. -/
@[simp] def taken : Event ω → List (Alarm (Bell ω))
  | passed _ _ due => due
  | _ => []

/-- Whether this is a pass at or after the deadline of an alarm, or one that saw the flag. -/
@[simp] def Takes (a : Alarm (Bell ω)) : Event ω → Prop
  | passed reading isShut _ => a.deadline ≤ reading ∨ isShut = true
  | _ => False

end Event

/-- The wakers of all registrations. -/
def calledOf (log : List (Event ω)) : List (Bell ω) := log.filterMap Event.called?

def bookedOf (log : List (Event ω)) : List (Alarm (Bell ω)) := log.filterMap Event.booked?

def keptOf (log : List (Event ω)) : List (Bell ω) := log.filterMap Event.kept?

/-- The wakers fired inside their registrations. -/
def answeredOf (log : List (Event ω)) : List (Bell ω) := log.filterMap Event.answered?

/-- The wakers fired by the thread. -/
def firedOf (log : List (Event ω)) : List (Bell ω) := log.filterMap Event.fired?

def takenOf (log : List (Event ω)) : List (Alarm (Bell ω)) := log.flatMap Event.taken

section Snoc

variable (log : List (Event ω)) (event : Event ω)

@[simp] theorem calledOf_snoc :
    calledOf (log ++ [event]) = calledOf log ++ event.called?.toList :=
  filterMap_snoc ..

@[simp] theorem bookedOf_snoc :
    bookedOf (log ++ [event]) = bookedOf log ++ event.booked?.toList :=
  filterMap_snoc ..

@[simp] theorem keptOf_snoc : keptOf (log ++ [event]) = keptOf log ++ event.kept?.toList :=
  filterMap_snoc ..

@[simp] theorem answeredOf_snoc :
    answeredOf (log ++ [event]) = answeredOf log ++ event.answered?.toList :=
  filterMap_snoc ..

@[simp] theorem firedOf_snoc : firedOf (log ++ [event]) = firedOf log ++ event.fired?.toList :=
  filterMap_snoc ..

@[simp] theorem takenOf_snoc : takenOf (log ++ [event]) = takenOf log ++ event.taken := by
  simp [takenOf]

end Snoc

/-- An alarm was booked, and since then no pass had to take it. -/
def IsWaiting (log : List (Event ω)) (a : Alarm (Bell ω)) : Prop :=
  Since (fun event => event.booked? = some a) (Event.Takes a) log

theorem isWaiting_snoc {log : List (Event ω)} {event : Event ω} {a : Alarm (Bell ω)} :
    IsWaiting (log ++ [event]) a ↔
      event.booked? = some a ∨ IsWaiting log a ∧ ¬ event.Takes a :=
  since_snoc

/-- The rules of the timer. -/
def Rule (earlier : List (Event ω)) : Event ω → Prop
  | .called bell _ => bell.call = (calledOf earlier).length
  | .overdue bell deadline reading => .called bell deadline ∈ earlier ∧ deadline ≤ reading
  | .refused bell deadline reading =>
    .called bell deadline ∈ earlier ∧ ¬ deadline ≤ reading ∧ .shut ∈ earlier
  | .booked alarm reading =>
    .called alarm.waker alarm.deadline ∈ earlier ∧ ¬ alarm.deadline ≤ reading ∧
      .shut ∉ earlier ∧ alarm.seq = (bookedOf earlier).length + 1
  | .answered bell => bell ∈ keptOf earlier
  -- the pass takes all that waits for it and nothing else, in the order of firing
  | .passed reading isShut due =>
    (isShut = true ↔ .shut ∈ earlier) ∧
      (∀ a, a ∈ due ↔ IsWaiting earlier a ∧ (a.deadline ≤ reading ∨ isShut = true)) ∧
      due.Pairwise fun a b =>
        a.deadline < b.deadline ∨ a.deadline = b.deadline ∧ a.seq < b.seq
  | .fired bell => firedOf earlier ++ [bell] <+: (takenOf earlier).map (·.waker)
  | .shut => True
  | .stopped => ∀ a, ¬ IsWaiting earlier a

/-! ## Where wakers are -/

/-- The waker that a registration in progress still has. -/
@[simp] def RegisterCall.bell? : RegisterCall ω → Option (Bell ω)
  | reading _ bell | locking _ _ bell | ringing bell => some bell
  | notifying => none

/-- The waker that a registration is about to fire. -/
@[simp] def RegisterCall.ringing? : RegisterCall ω → Option (Bell ω)
  | ringing bell => some bell
  | _ => none

/-- Whoever has only to notify the thread has no waker. -/
theorem RegisterCall.bind_notifying {δ : Type} {f : RegisterCall ω → Option δ}
    (hf : f .notifying = none) (isFirst : Bool) :
    (if isFirst then some .notifying else none).bind f = none := by
  cases isFirst with
  | true => exact hf
  | false => rfl

/-- What the thread still has to fire. -/
def Loop.bells : Loop ω → List (Bell ω)
  | awake bells => bells
  | _ => []

/-- A notification takes nothing out of the hands of the thread. -/
@[simp] theorem Loop.bells_notified (loop : Loop ω) : loop.notified.bells = loop.bells := by
  cases loop <;> rfl

@[simp] theorem Loop.bells_after (t : Timer (Bell ω)) (due : List (Alarm (Bell ω))) :
    (Loop.after t due).bells = due.map (·.waker) := by
  unfold Loop.after
  split
  · next hnone =>
      rw [List.isEmpty_iff.mp hnone]
      split <;> rfl
  · rfl

theorem Loop.notified_ne_asleep (loop : Loop ω) (deadline : Option Instant) :
    loop.notified ≠ .asleep deadline := by
  cases loop <;> exact nofun

theorem Loop.notified_eq_ended {loop : Loop ω} : loop.notified = .ended ↔ loop = .ended := by
  cases loop <;> simp [Loop.notified]

theorem filterMap_toList {γ δ : Type} (f : γ → Option δ) (x : Option γ) :
    x.toList.filterMap f = (x.bind f).toList := by
  cases x with
  | none => rfl
  | some c => cases hc : f c <;> simp [hc]

/-- What of the calls in progress changes when one goes on. -/
theorem count_replace {γ δ : Type} [DecidableEq δ] (f : γ → Option δ) {calls : List γ}
    {index : Nat} {call : γ} (hcall : calls[index]? = some call) (after : Option γ) (x : δ) :
    ((replace calls index after).filterMap f).count x + (f call).toList.count x =
      (calls.filterMap f).count x + (after.bind f).toList.count x := by
  obtain ⟨front, back, rfl, hreplace⟩ := exists_replace hcall
  have hself : (call :: back).filterMap f = (f call).toList ++ back.filterMap f := by
    rw [← List.singleton_append, List.filterMap_append]
    exact congrArg (· ++ _) (filterMap_toList f (some call))
  rw [hreplace, List.filterMap_append, List.filterMap_append, List.filterMap_append, hself,
    filterMap_toList]
  simp only [List.count_append]
  omega

/-- Nothing changes when the call keeps what it has. -/
theorem count_replace_of_eq {γ δ : Type} [DecidableEq δ] (f : γ → Option δ) {calls : List γ}
    {index : Nat} {call : γ} (hcall : calls[index]? = some call) (after : Option γ)
    (hafter : after.bind f = f call) (x : δ) :
    ((replace calls index after).filterMap f).count x = (calls.filterMap f).count x := by
  have hmoved := count_replace f hcall after x
  rw [hafter] at hmoved
  omega

/-! ## The invariants -/

namespace Service

variable {s s' : Service ω}

/-- All wakers that have not been fired, and those that have. -/
def bells (s : Service ω) : List (Bell ω) :=
  s.calls.filterMap RegisterCall.bell? ++ s.timer.alarms.map (·.waker) ++ s.loop.bells ++
    answeredOf s.log ++ firedOf s.log

/-- Whether somebody is about to notify the thread. -/
def IsHailing (s : Service ω) : Prop := .notifying ∈ s.calls ∨ .notifying ∈ s.stops

/-- What a registration in progress has found out so far. -/
def Knows (s : Service ω) : RegisterCall ω → Prop
  | .reading deadline bell => .called bell deadline ∈ s.log
  | .locking deadline seen bell => .called bell deadline ∈ s.log ∧ ¬ deadline ≤ seen
  | .ringing _ | .notifying => True

structure Upkeep (s : Service ω) : Prop where
  numbered : s.timer.Numbered
  seq_eq : s.timer.seq = (bookedOf s.log).length
  isShut_iff : s.timer.isShut = true ↔ .shut ∈ s.log
  knows : ∀ call ∈ s.calls, s.Knows call
  calls_eq : (calledOf s.log).map (·.call) = List.range s.called
  accounted : s.bells.Perm (calledOf s.log)
  kept : (s.calls.filterMap RegisterCall.ringing? ++ answeredOf s.log).Perm (keptOf s.log)
  fired : firedOf s.log ++ s.loop.bells = (takenOf s.log).map (·.waker)
  waiting : ∀ a, a ∈ s.timer.alarms ↔ IsWaiting s.log a
  /-- The thread sleeps no longer than it may, unless somebody is about to notify it. -/
  watchful : ∀ deadline, s.loop = .asleep deadline →
    s.IsHailing ∨ s.timer.isShut = false ∧ deadline = s.timer.head?.map (·.deadline)
  ended : s.loop = .ended → s.timer.isShut = true ∧ s.timer.alarms = []
  joined : s.joinable = false → .joining ∈ s.stops ∨ s.loop = .ended
  stopped : .stopped ∈ s.log → s.loop = .ended
  follows : Throughout Rule s.log

/-- A service that has just started keeps up. -/
theorem upkeep_start (now : Instant) : (start now : Service ω).Upkeep where
  numbered := numbered_new
  seq_eq := rfl
  isShut_iff := by simp [start]
  knows := fun _ hcall => nomatch hcall
  calls_eq := rfl
  accounted := .nil
  kept := .nil
  fired := rfl
  waiting := fun a => iff_of_false List.not_mem_nil not_since_nil
  watchful := nofun
  ended := nofun
  joined := nofun
  stopped := fun hin => nomatch hin
  follows := throughout_nil

/-- Only a booking gives a number, the next one. -/
theorem numbered_change (h : Change s s') (hs : s.timer.Numbered) : s'.timer.Numbered := by
  cases h with
  | booked => exact hs.book _ _
  | flagged => exact hs.shut
  | passed => exact hs.pass _
  | _ => exact hs

/-- The numbers given are those of the bookings. -/
theorem seq_change (h : Change s s') (hs : s.timer.seq = (bookedOf s.log).length) :
    s'.timer.seq = (bookedOf s'.log).length := by
  cases h with
  | booked => simp [book, hs]
  | flagged | passed => simpa [shut, pass, pass_eq] using hs
  | _ => simpa [leave] using hs

/-- The timer is shut down from the event on that says so. -/
theorem isShut_change (h : Change s s') (hs : s.timer.isShut = true ↔ .shut ∈ s.log) :
    s'.timer.isShut = true ↔ .shut ∈ s'.log := by
  cases h with
  | flagged => simp [shut]
  | booked | passed => simpa [book, pass, pass_eq] using hs
  | _ => simpa [leave] using hs

theorem Knows.mono {call : RegisterCall ω} (h : s.Knows call) (hlog : s.log ⊆ s'.log) :
    s'.Knows call := by
  cases call with
  | reading => exact hlog h
  | locking => exact ⟨hlog h.1, h.2⟩
  | ringing | notifying => trivial

theorem log_subset (h : Change s s') : s.log ⊆ s'.log := by
  cases h <;> simp [pass, leave]

/-- What a call has read stays true: it was read earlier in the log. -/
theorem knows_change (h : Change s s') (hs : ∀ call ∈ s.calls, s.Knows call) :
    ∀ call ∈ s'.calls, s'.Knows call := by
  have hold : ∀ call ∈ s.calls, s'.Knows call :=
    fun call hcall => (hs call hcall).mono (log_subset h)
  -- of the calls that are still there, it is enough to look at the one that went on
  have hreplaced : ∀ index after, s'.calls = replace s.calls index after →
      (∀ call, after = some call → s'.Knows call) → ∀ call ∈ s'.calls, s'.Knows call := by
    intro index after heq hafter call hcall
    rw [heq] at hcall
    rcases mem_replace hcall with hin | hnew
    · exact hold call hin
    · exact hafter call hnew
  -- only the call that goes on learns something, the others keep what they know
  cases h with
  | called deadline w =>
      intro call hcall
      rcases List.mem_append.mp hcall with hin | hnew
      · exact hold call hin
      · obtain rfl := List.mem_singleton.mp hnew
        exact List.mem_append_right _ (List.mem_singleton_self _)
  | overdue | refused =>
      refine hreplaced _ _ rfl ?_
      rintro call ⟨⟩
      trivial
  | early hcall hearly =>
      refine hreplaced _ _ rfl ?_
      rintro call ⟨⟩
      exact ⟨hs _ (List.mem_of_getElem? hcall), hearly⟩
  | booked =>
      refine hreplaced _ _ rfl ?_
      intro call hnext
      split at hnext
      · obtain rfl := Option.some.inj hnext
        trivial
      · exact nomatch hnext
  | answered | told => exact hreplaced _ _ rfl nofun
  | _ => exact hold

/-- Calls are numbered in the order in which they are made. -/
theorem calls_change (h : Change s s') (hs : (calledOf s.log).map (·.call) = List.range s.called) :
    (calledOf s'.log).map (·.call) = List.range s'.called := by
  cases h with
  | called => simp [hs, List.range_succ]
  | _ => simpa [pass, leave] using hs

/-- What is fired or in hand is what the passes took, in order. -/
theorem fired_change (h : Change s s')
    (hs : firedOf s.log ++ s.loop.bells = (takenOf s.log).map (·.waker)) :
    firedOf s'.log ++ s'.loop.bells = (takenOf s'.log).map (·.waker) := by
  cases h with
  | passed hloop =>
      have hnone : s.loop.bells = [] := by rw [hloop, Loop.bells]
      simpa [pass, hnone] using hs
  | fired hloop => simpa [Loop.bells, hloop] using hs
  | _ => simpa [leave] using hs

/-- The alarms of the timer are those that wait according to the log. -/
theorem waiting_change (h : Change s s') (hs : ∀ a, a ∈ s.timer.alarms ↔ IsWaiting s.log a) :
    ∀ a, a ∈ s'.timer.alarms ↔ IsWaiting s'.log a := by
  intro a
  cases h with
  | booked => simp [book, isWaiting_snoc, hs, or_comm, eq_comm]
  | passed =>
      simp only [pass, pass_eq, isWaiting_snoc, Event.booked?, Event.Takes, ← hs, ← isDue_iff]
      simp
  | flagged => simpa [shut, isWaiting_snoc] using hs a
  | _ => simpa [leave, isWaiting_snoc] using hs a

/-! ### No waker is lost, and none is fired twice -/

/-- A pass moves what is due out of the timer. -/
theorem count_pass [DecidableEq ω] (t : Timer (Bell ω)) (now : Instant) (bell : Bell ω) :
    ((t.pass now).state.alarms.map (·.waker)).count bell +
        ((t.due now).map (·.waker)).count bell =
      (t.alarms.map (·.waker)).count bell := by
  have hsplit := (List.filter_append_perm (t.isDue now) t.alarms).map (·.waker)
  have hdue := (t.due_perm now).map (·.waker)
  rw [hdue.count_eq, ← hsplit.count_eq, List.map_append, List.count_append, Nat.add_comm]
  rfl

/-- Every waker is in just one place. -/
theorem accounted_change (h : Change s s') (hs : s.bells.Perm (calledOf s.log)) :
    s'.bells.Perm (calledOf s'.log) := by
  classical
  -- each waker is counted in all places where it can be, so a move keeps the sum
  rw [List.perm_iff_count] at hs ⊢
  intro bell
  have hbell := hs bell
  simp only [bells, List.count_append] at hbell ⊢
  -- on the change: each moves one waker, or none, and a pass all that are due
  cases h with
  | called =>
      simp
      omega
  | overdue hcall | early hcall | refused hcall | told hcall =>
      rw [count_replace_of_eq RegisterCall.bell? hcall]
      · simpa using hbell
      · rfl
  | @booked index deadline seen own hcall =>
      have hmoved := count_replace RegisterCall.bell? hcall
        (if s.timer.isEarliest deadline then some .notifying else none) bell
      rw [RegisterCall.bind_notifying rfl] at hmoved
      simp [book] at hmoved ⊢
      omega
  | answered hcall =>
      have hmoved := count_replace RegisterCall.bell? hcall none bell
      simp at hmoved ⊢
      omega
  | passed hloop =>
      have hmoved := count_pass s.timer s.now bell
      have hnone : s.loop.bells = [] := by rw [hloop, Loop.bells]
      simp [pass, hnone] at hbell ⊢
      omega
  | fired hloop =>
      simp [Loop.bells, hloop, List.count_cons] at hbell ⊢
      omega
  | _ => simpa [shut, leave] using hbell

/-- A waker that a call keeps for itself is fired by that call. -/
theorem kept_change (h : Change s s')
    (hs : (s.calls.filterMap RegisterCall.ringing? ++ answeredOf s.log).Perm (keptOf s.log)) :
    (s'.calls.filterMap RegisterCall.ringing? ++ answeredOf s'.log).Perm (keptOf s'.log) := by
  classical
  rw [List.perm_iff_count] at hs ⊢
  intro bell
  have hbell := hs bell
  simp only [List.count_append] at hbell ⊢
  cases h with
  | called =>
      simpa [List.filterMap_cons] using hbell
  -- the call decides to fire its own waker
  | @overdue index deadline own hcall | @refused index deadline seen own hcall =>
      have hmoved := count_replace RegisterCall.ringing? hcall (some (.ringing own)) bell
      simp at hmoved ⊢
      omega
  | early hcall | told hcall =>
      rw [count_replace_of_eq RegisterCall.ringing? hcall]
      · exact hbell
      · rfl
  | booked hcall =>
      rw [count_replace_of_eq RegisterCall.ringing? hcall]
      · simpa using hbell
      · exact RegisterCall.bind_notifying rfl _
  | answered hcall =>
      have hmoved := count_replace RegisterCall.ringing? hcall none bell
      simp at hmoved ⊢
      omega
  | _ => simpa [pass, leave] using hbell

/-! ### The thread -/

theorem IsHailing.of_calls (h : s.IsHailing) {index : Nat} {call : RegisterCall ω}
    (hcall : s.calls[index]? = some call) (hne : call ≠ .notifying) (after : Option (RegisterCall ω))
    (hcalls : s'.calls = replace s.calls index after) (hstops : s'.stops = s.stops) :
    s'.IsHailing := by
  rcases h with hin | hin
  · exact .inl (hcalls ▸ mem_replace_of_ne hcall hin hne.symm after)
  · exact .inr (hstops ▸ hin)

theorem IsHailing.of_stops (h : s.IsHailing) {index : Nat} {call : StopCall}
    (hstop : s.stops[index]? = some call) (hne : call ≠ .notifying) (after : Option StopCall)
    (hcalls : s'.calls = s.calls) (hstops : s'.stops = replace s.stops index after) :
    s'.IsHailing := by
  rcases h with hin | hin
  · exact .inl (hcalls ▸ hin)
  · exact .inr (hstops ▸ mem_replace_of_ne hstop hin hne.symm after)

/-- A sleeping thread sleeps until the first deadline, unless somebody is about to wake it. -/
theorem watchful_change (h : Change s s') (hnumbered : s.timer.Numbered)
    (hs : ∀ deadline, s.loop = .asleep deadline →
      s.IsHailing ∨ s.timer.isShut = false ∧ deadline = s.timer.head?.map (·.deadline)) :
    ∀ deadline, s'.loop = .asleep deadline →
      s'.IsHailing ∨ s'.timer.isShut = false ∧ deadline = s'.timer.head?.map (·.deadline) := by
  intro deadline hasleep
  -- a change that would make the sleep too long leaves behind a call that is about to notify
  cases h with
  | called =>
      refine (hs deadline hasleep).imp_left fun hhailing => hhailing.imp_left ?_
      exact List.mem_append_left _
  | overdue hcall | early hcall | refused hcall | answered hcall =>
      refine (hs deadline hasleep).imp_left fun hhailing => ?_
      exact hhailing.of_calls hcall nofun _ rfl rfl
  | @booked index own seen bell hcall =>
      -- a sleep that has become too long is ended by the registration that made it so
      cases hfirst : s.timer.isEarliest own with
      | true =>
          left
          left
          simp only [if_true]
          exact mem_replace_some _ _ _
      | false =>
          refine (hs deadline hasleep).imp (fun hhailing => ?_) fun hsleep => ?_
          · exact hhailing.of_calls hcall nofun _ rfl rfl
          · rwa [hnumbered.head?_book hfirst]
  | told | hailed | woken => exact absurd hasleep (s.loop.notified_ne_asleep deadline)
  | asked =>
      refine (hs deadline hasleep).imp_left fun hhailing => hhailing.imp_right ?_
      exact List.mem_append_left _
  | flagged => exact .inl (.inr (mem_replace_some _ _ _))
  | took hstop | missed hstop | joined hstop =>
      refine (hs deadline hasleep).imp_left fun hhailing => ?_
      exact hhailing.of_stops hstop nofun _ rfl rfl
  | passed hloop =>
      -- the thread sleeps until the first deadline that its own pass has left
      simp only [pass, Loop.after] at hasleep
      split at hasleep
      · split at hasleep
        · exact nomatch hasleep
        · next hopen =>
            injection hasleep with hdeadline
            exact .inr ⟨Bool.eq_false_iff.mpr hopen, hdeadline.symm⟩
      · exact nomatch hasleep
  | fired => exact nomatch hasleep
  | still | elapsed => exact hs deadline hasleep

/-- The thread ends only when the timer is shut down and has nothing left. -/
theorem ended_change (h : Change s s')
    (hs : s.loop = .ended → s.timer.isShut = true ∧ s.timer.alarms = []) :
    s'.loop = .ended → s'.timer.isShut = true ∧ s'.timer.alarms = [] := by
  intro hended
  -- nothing is booked after the shutdown, so nothing comes to a thread that has ended
  cases h with
  | booked hcall hopen => exact absurd (hs hended).1 (Bool.eq_false_iff.mp hopen)
  | told | hailed | woken => exact hs (Loop.notified_eq_ended.mp hended)
  | flagged => exact ⟨rfl, (hs hended).2⟩
  | passed hloop =>
      simp only [pass, Loop.after] at hended
      split at hended
      · split at hended
        · next hshut =>
            -- once the timer is shut down a pass takes everything
            refine ⟨hshut, List.filter_eq_nil_iff.mpr fun a _ => ?_⟩
            have hdue : s.timer.isDue s.now a = true := isDue_iff.mpr (.inr hshut)
            simp [hdue]
        · exact nomatch hended
      · exact nomatch hended
  | fired => exact nomatch hended
  | _ => exact hs hended

/-- The handle of the thread is gone only if somebody waits for it or it has ended. -/
theorem joined_change (h : Change s s')
    (hs : s.joinable = false → .joining ∈ s.stops ∨ s.loop = .ended) :
    s'.joinable = false → .joining ∈ s'.stops ∨ s'.loop = .ended := by
  intro hgone
  cases h with
  | told | woken => exact (hs hgone).imp_right Loop.notified_eq_ended.mpr
  | asked => exact (hs hgone).imp_left (List.mem_append_left _)
  | flagged hstop =>
      refine (hs hgone).imp_left fun hin => ?_
      exact mem_replace_of_ne hstop hin nofun _
  | hailed hstop =>
      refine (hs hgone).imp (fun hin => ?_) Loop.notified_eq_ended.mpr
      exact mem_replace_of_ne hstop hin nofun _
  | took => exact .inl (mem_replace_some _ _ _)
  -- the handle is gone and nobody is waiting: whoever took it has seen the thread end
  | missed _ hfree => exact .inr ((hs hgone).resolve_left hfree)
  | joined _ hloop => exact .inr hloop
  | passed hloop =>
      refine (hs hgone).imp_right fun hended => ?_
      rw [hloop] at hended
      exact nomatch hended
  | fired hloop =>
      refine (hs hgone).imp_right fun hended => ?_
      rw [hloop] at hended
      exact nomatch hended
  | _ => exact hs hgone

/-- A stop returns only when the thread has ended. -/
theorem stopped_change (h : Change s s')
    (hjoined : s.joinable = false → .joining ∈ s.stops ∨ s.loop = .ended)
    (hs : .stopped ∈ s.log → s.loop = .ended) :
    .stopped ∈ s'.log → s'.loop = .ended := by
  intro hstopped
  cases h with
  | told | hailed | woken => exact Loop.notified_eq_ended.mpr (hs hstopped)
  | missed _ hfree hgone => exact (hjoined hgone).resolve_left hfree
  | joined _ hloop => exact hloop
  | passed hloop =>
      have hended := hs (by simpa [pass] using hstopped)
      rw [hloop] at hended
      exact nomatch hended
  | fired hloop =>
      have hended := hs (by simpa using hstopped)
      rw [hloop] at hended
      exact nomatch hended
  | _ => exact hs (by simpa using hstopped)

/-! ### The rules -/

/-- Every event is one that the log before it allows. -/
theorem Upkeep.rule_change (h : Change s s') (hs : s.Upkeep) : Throughout Rule s'.log := by
  -- on the event: what it needs is what the upkeep says of the state before it
  cases h with
  | called =>
      refine hs.follows.snoc ?_
      have hlength := congrArg List.length hs.calls_eq
      rw [List.length_map, List.length_range] at hlength
      exact hlength.symm
  | overdue hcall hover =>
      exact hs.follows.snoc ⟨hs.knows _ (List.mem_of_getElem? hcall), hover⟩
  | refused hcall hshut =>
      obtain ⟨hcalled, hearly⟩ := hs.knows _ (List.mem_of_getElem? hcall)
      exact hs.follows.snoc ⟨hcalled, hearly, hs.isShut_iff.mp hshut⟩
  | booked hcall hopen =>
      obtain ⟨hcalled, hearly⟩ := hs.knows _ (List.mem_of_getElem? hcall)
      refine hs.follows.snoc ⟨hcalled, hearly, fun hshut => ?_, congrArg Nat.succ hs.seq_eq⟩
      exact Bool.eq_false_iff.mp hopen (hs.isShut_iff.mpr hshut)
  | answered hcall =>
      refine hs.follows.snoc (hs.kept.mem_iff.mp (List.mem_append_left _ ?_))
      exact List.mem_filterMap.mpr ⟨_, List.mem_of_getElem? hcall, rfl⟩
  | flagged => exact hs.follows.snoc trivial
  | missed _ hfree hgone =>
      refine hs.follows.snoc fun a hwaiting => ?_
      have halarms := (hs.ended ((hs.joined hgone).resolve_left hfree)).2
      exact nomatch halarms ▸ (hs.waiting a).mpr hwaiting
  | joined _ hloop =>
      refine hs.follows.snoc fun a hwaiting => ?_
      have halarms := (hs.ended hloop).2
      exact nomatch halarms ▸ (hs.waiting a).mpr hwaiting
  | passed =>
      refine hs.follows.snoc ⟨hs.isShut_iff, fun a => ?_, ?_⟩
      · rw [mem_due, isDue_iff, hs.waiting]
      · exact (hs.numbered.pairwise_due s.now).imp Alarm.spot_lt_iff.mp
  | @fired bell rest hloop =>
      -- what has been fired and what is in hand are what the passes took, in this order
      refine hs.follows.snoc ⟨rest, ?_⟩
      rw [← hs.fired, hloop, Loop.bells, List.append_assoc]
      rfl
  | _ => exact hs.follows

/-- Every change keeps the service up. -/
theorem Upkeep.change (h : Change s s') (hs : s.Upkeep) : s'.Upkeep where
  numbered := numbered_change h hs.numbered
  seq_eq := seq_change h hs.seq_eq
  isShut_iff := isShut_change h hs.isShut_iff
  knows := knows_change h hs.knows
  calls_eq := calls_change h hs.calls_eq
  accounted := accounted_change h hs.accounted
  kept := kept_change h hs.kept
  fired := fired_change h hs.fired
  waiting := waiting_change h hs.waiting
  watchful := watchful_change h hs.numbered hs.watchful
  ended := ended_change h hs.ended
  joined := joined_change h hs.joined
  stopped := stopped_change h hs.joined hs.stopped
  follows := hs.rule_change h

theorem run_upkeep (now : Instant) (actions : List (Action ω)) : ((start now).run actions).Upkeep :=
  run_kept (upkeep_start now) (fun _ _ => Upkeep.change) actions

end Service

end Timer

end Troupe
