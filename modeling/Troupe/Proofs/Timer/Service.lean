import Mathlib.Data.List.Basic
import Troupe.Proofs.Agent.Traffic
import Troupe.Proofs.Time.Deadlines
import Troupe.Proofs.Timer.Order

/-!
# The service of a timer

A timer has a thread of its own, which passes over the alarms, fires what is due and sleeps until
the next deadline. Registrations come from anywhere, and so do requests to shut the timer down;
alarms, counter and flag are behind a lock, the clock is read before it is taken, and wakers are
fired and the thread is notified after it was given back. Here the steps of all of them mix.
Every registration has a number, which its waker carries as a bell, and what happens is logged.

* `register_alone` — a registration that nobody interferes with is that of the timer;
* `change_next` — what can come of a step, case by case.
-/

namespace Troupe

/-- A waker under the number of the registration that brought it. -/
structure Bell (ω : Type) where
  call : Nat
  waker : ω
deriving DecidableEq, Repr

namespace Timer

variable {ω : Type}

open Header.Traffic (replace replace_last)

/-! ## The parties -/

/-- A registration in progress. -/
inductive RegisterCall (ω : Type) where
  /-- About to read the clock. -/
  | reading (deadline : Instant) (bell : Bell ω)
  /-- The deadline was later than the reading: about to take the lock. -/
  | locking (deadline reading : Instant) (bell : Bell ω)
  /-- The timer does not have the waker: about to fire it. -/
  | ringing (bell : Bell ω)
  /-- Has brought the earliest deadline: about to notify the thread. -/
  | notifying
deriving DecidableEq, Repr

/-- A request to shut down in progress. -/
inductive StopCall where
  /-- About to set the flag, behind the lock. -/
  | flagging
  | notifying
  /-- About to take the handle of the thread, once nobody else has hold of it. -/
  | taking
  /-- Has the handle: waits for the thread to end. -/
  | joining
deriving DecidableEq, Repr

/-- The thread of the timer. -/
inductive Loop (ω : Type) where
  /-- Has these to fire before it takes the lock and passes over the alarms. -/
  | awake (bells : List (Bell ω))
  /-- Sleeps until it is notified or until a deadline, if there is one. -/
  | asleep (deadline : Option Instant)
  | ended
deriving DecidableEq, Repr

/-- What is logged. -/
inductive Event (ω : Type) where
  /-- A registration began. -/
  | called (bell : Bell ω) (deadline : Instant)
  /-- A registration found its deadline over at its reading. -/
  | overdue (bell : Bell ω) (deadline reading : Instant)
  /-- A registration found the timer shut down. -/
  | refused (bell : Bell ω) (deadline reading : Instant)
  | booked (alarm : Alarm (Bell ω)) (reading : Instant)
  /-- A waker was fired inside its registration. -/
  | answered (bell : Bell ω)
  /-- The thread passed over the alarms and took these out. -/
  | passed (reading : Instant) (isShut : Bool) (due : List (Alarm (Bell ω)))
  /-- A waker was fired by the thread. -/
  | fired (bell : Bell ω)
  /-- The flag was set. -/
  | shut
  /-- A request to shut down returned. -/
  | stopped
deriving DecidableEq, Repr

/-- The waker fired inside a registration. -/
@[simp] def Event.answered? : Event ω → Option (Bell ω)
  | answered bell => some bell
  | _ => none

/-- What a step of a registration does. -/
structure RegisterStep (ω : Type) where
  timer : Timer (Bell ω)
  events : List (Event ω) := []
  notifies : Bool := false
  next : Option (RegisterCall ω)

def RegisterCall.step (t : Timer (Bell ω)) (now : Instant) : RegisterCall ω → RegisterStep ω
  | .reading deadline bell =>
    -- the clock is read before the lock is taken, so the reading may be old by then
    if deadline ≤ now then
      { timer := t, events := [.overdue bell deadline now], next := some (.ringing bell) }
    else { timer := t, next := some (.locking deadline now bell) }
  | .locking deadline seen bell =>
    if t.isShut then
      { timer := t, events := [.refused bell deadline seen], next := some (.ringing bell) }
    else
      -- the comparison is made behind the same lock, but the notification comes after it
      { timer := t.book deadline bell
        events := [.booked ⟨deadline, t.seq + 1, bell⟩ seen]
        next := if t.isEarliest deadline then some .notifying else none }
  | .ringing bell => { timer := t, events := [.answered bell], next := none }
  | .notifying => { timer := t, notifies := true, next := none }

/-- The thread after a notification, which is lost unless it sleeps. -/
def Loop.notified : Loop ω → Loop ω
  | asleep _ => awake []
  | loop => loop

def Loop.isEnded : Loop ω → Bool
  | ended => true
  | _ => false

/-- How the thread goes on after a pass: it has something to fire, or nothing to wait for any
more, or it sleeps. -/
def Loop.after (t : Timer (Bell ω)) (due : List (Alarm (Bell ω))) : Loop ω :=
  if due.isEmpty then if t.isShut then .ended else .asleep (t.head?.map (·.deadline))
  else .awake (due.map (·.waker))

/-! ## The service -/

/-- A timer with its thread, the time, everything in progress, and the log. -/
structure Service (ω : Type) where
  timer : Timer (Bell ω)
  now : Instant
  loop : Loop ω
  /-- Whether the handle of the thread is still to be taken. -/
  joinable : Bool
  calls : List (RegisterCall ω)
  stops : List StopCall
  /-- How many registrations there were. -/
  called : Nat
  log : List (Event ω)

namespace Service

/-- A timer that has just been started. -/
def start (now : Instant) : Service ω := ⟨{}, now, .awake [], true, [], [], 0, []⟩

/-- What can happen next. A call in progress is named by its place among its like. -/
inductive Action (ω : Type) where
  | callRegister (deadline : Instant) (w : ω)
  | register (index : Nat)
  | callStop
  | stop (index : Nat)
  /-- The thread goes on, if it can. -/
  | loop
  /-- The thread wakes up for no reason. -/
  | rouse
  | elapse (t : Span)

/-- The thread passes over the alarms. -/
def pass (s : Service ω) : Service ω :=
  let due := s.timer.due s.now
  let timer := (s.timer.pass s.now).state
  { s with
    timer
    loop := .after timer due
    log := s.log ++ [.passed s.now s.timer.isShut due] }

/-- The thread goes on. -/
def goOn (s : Service ω) : Service ω :=
  match s.loop with
  -- a pass reads the clock behind the lock, which it keeps until the thread sleeps
  | .awake [] => s.pass
  | .awake (bell :: rest) => { s with loop := .awake rest, log := s.log ++ [.fired bell] }
  | .asleep (some deadline) => if deadline ≤ s.now then { s with loop := .awake [] } else s
  | .asleep none | .ended => s

/-- A request to shut down returns. -/
def leave (s : Service ω) (index : Nat) : Service ω :=
  { s with stops := replace s.stops index none, log := s.log ++ [.stopped] }

/-- A request to shut down goes on, if it can. -/
def goOnStopping (s : Service ω) (index : Nat) : StopCall → Service ω
  | .flagging =>
    { s with
      timer := s.timer.shut
      stops := replace s.stops index (some .notifying)
      log := s.log ++ [.shut] }
  | .notifying =>
    { s with loop := s.loop.notified, stops := replace s.stops index (some .taking) }
  | .taking =>
    -- who joins the thread keeps the handle locked
    if .joining ∈ s.stops then s
    else if s.joinable then
      { s with joinable := false, stops := replace s.stops index (some .joining) }
    else s.leave index
  | .joining => if s.loop.isEnded then s.leave index else s

def next (s : Service ω) : Action ω → Service ω
  | .callRegister deadline w =>
    { s with
      calls := s.calls ++ [.reading deadline ⟨s.called, w⟩]
      called := s.called + 1
      log := s.log ++ [.called ⟨s.called, w⟩ deadline] }
  | .register index =>
    match s.calls[index]? with
    | none => s
    | some call =>
      let step := call.step s.timer s.now
      { s with
        timer := step.timer
        loop := if step.notifies then s.loop.notified else s.loop
        calls := replace s.calls index step.next
        log := s.log ++ step.events }
  | .callStop => { s with stops := s.stops ++ [.flagging] }
  | .stop index =>
    match s.stops[index]? with
    | none => s
    | some call => s.goOnStopping index call
  | .loop => s.goOn
  | .rouse => { s with loop := s.loop.notified }
  | .elapse t => { s with now := s.now.plus t }

/-- What comes of actions one after another. -/
def run (s : Service ω) (actions : List (Action ω)) : Service ω := actions.foldl next s

/-- What holds at the start and is kept by every action holds after every run. -/
theorem run_invariant {P : Service ω → Prop} {s : Service ω} (hs : P s)
    (hnext : ∀ s action, P s → P (s.next action)) (actions : List (Action ω)) :
    P (s.run actions) := by
  induction actions generalizing s with
  | nil => exact hs
  | cons action rest ih => exact ih (hnext s action hs)

/-! ## A registration without interference -/

/-- A registration from its first step to its last. -/
theorem register_alone (s : Service ω) (deadline : Instant) (w : ω) :
    let o := s.timer.register s.now deadline ⟨s.called, w⟩
    ∃ steps events,
      s.run (.callRegister deadline w :: List.replicate steps (.register s.calls.length)) =
        { s with
          timer := o.state
          loop := if o.answer then s.loop.notified else s.loop
          called := s.called + 1
          log := s.log ++ events } ∧
      (events.filterMap Event.answered?).map .wake = o.effects := by
  obtain ⟨t, now, loop, joinable, calls, stops, called, log⟩ := s
  -- fired at once, refused, or booked, and told to the thread if it is the first
  by_cases hover : deadline ≤ now
  · have ho : t.register now deadline ⟨called, w⟩ = ⟨t, [.wake ⟨called, w⟩], false⟩ := by
      rw [register_eq, if_pos hover]
    refine ⟨2, [.called ⟨called, w⟩ deadline, .overdue ⟨called, w⟩ deadline now,
      .answered ⟨called, w⟩], ?_, ?_⟩
    · simp [List.replicate, run, next, RegisterCall.step, hover, ho]
    · simp only [ho]
      rfl
  by_cases hshut : t.isShut = true
  · have ho : t.register now deadline ⟨called, w⟩ = ⟨t, [.wake ⟨called, w⟩], false⟩ := by
      rw [register_eq, if_neg hover, if_pos hshut]
    refine ⟨3, [.called ⟨called, w⟩ deadline, .refused ⟨called, w⟩ deadline now,
      .answered ⟨called, w⟩], ?_, ?_⟩
    · simp [List.replicate, run, next, RegisterCall.step, hover, hshut, ho]
    · simp only [ho]
      rfl
  have ho : t.register now deadline ⟨called, w⟩ =
      ⟨t.book deadline ⟨called, w⟩, [], t.isEarliest deadline⟩ := by
    rw [register_eq, if_neg hover, if_neg hshut]
  by_cases hfirst : t.isEarliest deadline = true
  · refine ⟨3, [.called ⟨called, w⟩ deadline,
      .booked ⟨deadline, t.seq + 1, ⟨called, w⟩⟩ now], ?_, ?_⟩
    · simp [List.replicate, run, next, RegisterCall.step, hover, hshut, hfirst, ho]
    · simp only [ho]
      rfl
  · refine ⟨2, [.called ⟨called, w⟩ deadline,
      .booked ⟨deadline, t.seq + 1, ⟨called, w⟩⟩ now], ?_, ?_⟩
    · simp [List.replicate, run, next, RegisterCall.step, hover, hshut, hfirst, ho]
    · simp only [ho]
      rfl

/-! ## What can come of a step -/

/-- What can come of a step. -/
inductive Change (s : Service ω) : Service ω → Prop where
  | still : Change s s
  | called (deadline : Instant) (w : ω) :
      Change s { s with
        calls := s.calls ++ [.reading deadline ⟨s.called, w⟩]
        called := s.called + 1
        log := s.log ++ [.called ⟨s.called, w⟩ deadline] }
  | overdue {index : Nat} {deadline : Instant} {bell : Bell ω}
      (hcall : s.calls[index]? = some (.reading deadline bell)) (hover : deadline ≤ s.now) :
      Change s { s with
        calls := replace s.calls index (some (.ringing bell))
        log := s.log ++ [.overdue bell deadline s.now] }
  | early {index : Nat} {deadline : Instant} {bell : Bell ω}
      (hcall : s.calls[index]? = some (.reading deadline bell)) (hearly : ¬ deadline ≤ s.now) :
      Change s { s with calls := replace s.calls index (some (.locking deadline s.now bell)) }
  | refused {index : Nat} {deadline seen : Instant} {bell : Bell ω}
      (hcall : s.calls[index]? = some (.locking deadline seen bell))
      (hshut : s.timer.isShut = true) :
      Change s { s with
        calls := replace s.calls index (some (.ringing bell))
        log := s.log ++ [.refused bell deadline seen] }
  | booked {index : Nat} {deadline seen : Instant} {bell : Bell ω}
      (hcall : s.calls[index]? = some (.locking deadline seen bell))
      (hopen : s.timer.isShut = false) :
      Change s { s with
        timer := s.timer.book deadline bell
        calls := replace s.calls index
          (if s.timer.isEarliest deadline then some .notifying else none)
        log := s.log ++ [.booked ⟨deadline, s.timer.seq + 1, bell⟩ seen] }
  | answered {index : Nat} {bell : Bell ω} (hcall : s.calls[index]? = some (.ringing bell)) :
      Change s { s with
        calls := replace s.calls index none, log := s.log ++ [.answered bell] }
  | told {index : Nat} (hcall : s.calls[index]? = some .notifying) :
      Change s { s with loop := s.loop.notified, calls := replace s.calls index none }
  | asked : Change s { s with stops := s.stops ++ [.flagging] }
  | flagged {index : Nat} (hstop : s.stops[index]? = some .flagging) :
      Change s { s with
        timer := s.timer.shut
        stops := replace s.stops index (some .notifying)
        log := s.log ++ [.shut] }
  | hailed {index : Nat} (hstop : s.stops[index]? = some .notifying) :
      Change s { s with
        loop := s.loop.notified, stops := replace s.stops index (some .taking) }
  | took {index : Nat} (hstop : s.stops[index]? = some .taking) (hfree : .joining ∉ s.stops)
      (hthere : s.joinable = true) :
      Change s { s with joinable := false, stops := replace s.stops index (some .joining) }
  | missed {index : Nat} (hstop : s.stops[index]? = some .taking) (hfree : .joining ∉ s.stops)
      (hgone : s.joinable = false) : Change s (s.leave index)
  | joined {index : Nat} (hstop : s.stops[index]? = some .joining) (hloop : s.loop = .ended) :
      Change s (s.leave index)
  | passed (hloop : s.loop = .awake []) : Change s s.pass
  | fired {bell : Bell ω} {rest : List (Bell ω)} (hloop : s.loop = .awake (bell :: rest)) :
      Change s { s with loop := .awake rest, log := s.log ++ [.fired bell] }
  | woken : Change s { s with loop := s.loop.notified }
  | elapsed (t : Span) : Change s { s with now := s.now.plus t }

/-- A step of a registration is one of the changes of the service. -/
theorem change_register (s : Service ω) {index : Nat} {call : RegisterCall ω}
    (hcall : s.calls[index]? = some call) : Change s (s.next (.register index)) := by
  simp only [next, hcall]
  -- on the point of the call: each branch has its own change
  cases call with
  | reading deadline bell =>
      simp only [RegisterCall.step]
      split
      · next hover => exact .overdue hcall hover
      · next hearly =>
          simp only [List.append_nil]
          exact .early hcall hearly
  | locking deadline seen bell =>
      simp only [RegisterCall.step]
      split
      · next hshut => exact .refused hcall hshut
      · next hopen => exact .booked hcall (Bool.eq_false_iff.mpr hopen)
  | ringing bell => exact .answered hcall
  | notifying =>
      simp only [RegisterCall.step, List.append_nil]
      exact .told hcall

/-- A step of a stop is one of the changes of the service. -/
theorem change_stop (s : Service ω) {index : Nat} {call : StopCall}
    (hstop : s.stops[index]? = some call) : Change s (s.next (.stop index)) := by
  simp only [next, hstop]
  cases call with
  | flagging => exact .flagged hstop
  | notifying => exact .hailed hstop
  | taking =>
      simp only [goOnStopping]
      split
      · exact .still
      · next hfree =>
          split
          · next hthere => exact .took hstop hfree hthere
          · next hgone => exact .missed hstop hfree (Bool.eq_false_iff.mpr hgone)
  | joining =>
      simp only [goOnStopping]
      cases hloop : s.loop with
      | ended => exact .joined hstop hloop
      | awake _ | asleep _ => exact .still

/-- A step of the thread is one of the changes of the service. -/
theorem change_loop (s : Service ω) : Change s s.goOn := by
  unfold goOn
  split
  · next hloop => exact .passed hloop
  · next hloop => exact .fired hloop
  · next hloop =>
      split
      · have hwoken : s.loop.notified = .awake [] := by rw [hloop, Loop.notified]
        rw [← hwoken]
        exact .woken
      · exact .still
  · exact .still
  · exact .still

/-- Every action is one of the changes of the service. -/
theorem change_next (s : Service ω) (action : Action ω) : Change s (s.next action) := by
  cases action with
  | callRegister deadline w => exact .called deadline w
  | register index =>
      cases hcall : s.calls[index]? with
      | none =>
          simp only [next, hcall]
          exact .still
      | some call => exact s.change_register hcall
  | callStop => exact .asked
  | stop index =>
      cases hstop : s.stops[index]? with
      | none =>
          simp only [next, hstop]
          exact .still
      | some call => exact s.change_stop hstop
  | loop => exact s.change_loop
  | rouse => exact .woken
  | elapse t => exact .elapsed t

/-- What holds at the start and is kept by every change holds after every run. -/
theorem run_kept {P : Service ω → Prop} {s : Service ω} (hs : P s)
    (hchange : ∀ s s', Change s s' → P s → P s') (actions : List (Action ω)) :
    P (s.run actions) :=
  run_invariant hs (fun s action => hchange s _ (s.change_next action)) actions

end Service

end Timer

end Troupe
