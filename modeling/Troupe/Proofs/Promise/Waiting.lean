import Mathlib.Data.List.Basic
import Troupe.Proofs.History
import Troupe.Proofs.Promise.Once
import Troupe.Proofs.Time.Deadlines
import Troupe.Proofs.Timer.Order

/-!
# Waiting for a promise with a limit

Polls with a limit come with any wakers and any limits, while values are offered, time passes, and
the timer, which is not there for this promise alone, passes over its alarms. The first of them
fixes the deadline. Each leaves its waker in the promise, but only the first one that goes on to
wait gives its waker to the timer.

* `timed_pollTimeout` — what can come of a poll with a limit;
* `telling_diary` — what a diary tells of the promise, its deadline and its alarm;
* `diary_isKept_iff` — a wait never hangs as long as its wakers are one and the same.
-/

namespace Troupe

/-! ## Wakers that are fired -/

section Wakes

variable {ω : Type}

/-- The wakers that are fired, in order. -/
def wakesOf (effects : List (Effect ω)) : List ω :=
  effects.filterMap fun
    | .wake w => some w
    | .pressure _ => none

@[simp] theorem wakesOf_nil : wakesOf ([] : List (Effect ω)) = [] := rfl

@[simp] theorem wakesOf_wake_cons (w : ω) (effects : List (Effect ω)) :
    wakesOf (.wake w :: effects) = w :: wakesOf effects :=
  rfl

/-- Wakers are fired in the order of the effects. -/
theorem wakesOf_append (effects effects' : List (Effect ω)) :
    wakesOf (effects ++ effects') = wakesOf effects ++ wakesOf effects' :=
  List.filterMap_append

@[simp] theorem wakesOf_pressures (event : Option PressureEvent) :
    wakesOf (Effect.pressures event : List (Effect ω)) = [] := by
  cases event <;> rfl

@[simp] theorem wakesOf_wakes (w : Option ω) : wakesOf (Effect.wakes w) = w.toList := by
  cases w <;> rfl

end Wakes

namespace Promise

variable {ω α : Type}

/-! ## One poll -/

/-- What can come of a poll with a limit. -/
inductive Timed (p : Promise ω α) (timer : Timer ω) (w : ω) (allowed : Span)
    (deadline compared registered : Instant) :
    Outcome ω (Promise ω α × Timer ω) (Poll (Except Fault α)) → Prop where
  | value (value : α) (hslot : p.slot = .ready value) :
      Timed p timer w allowed deadline compared registered
        ⟨({ p with deadline := some deadline, slot := .taken }, timer), [], .ready (.ok value)⟩
  | gone (hslot : p.slot = .taken) :
      Timed p timer w allowed deadline compared registered
        ⟨({ p with deadline := some deadline }, timer), [], .ready (.error .consumed)⟩
  | late (hslot : p.slot = .pending) (hlate : deadline ≤ compared) :
      Timed p timer w allowed deadline compared registered
        ⟨({ p with deadline := some deadline, waker := some w }, timer), [],
          .ready (.error (.awaitTimeout allowed))⟩
  | again (hslot : p.slot = .pending) (hearly : ¬ deadline ≤ compared) (harmed : p.armed = true) :
      Timed p timer w allowed deadline compared registered
        ⟨({ p with deadline := some deadline, waker := some w }, timer), [], .pending⟩
  | first (hslot : p.slot = .pending) (hearly : ¬ deadline ≤ compared) (harmed : p.armed = false) :
      Timed p timer w allowed deadline compared registered
        ⟨({ p with deadline := some deadline, waker := some w, armed := true },
          (timer.register registered deadline w).state),
          (timer.register registered deadline w).effects, .pending⟩

/-- A poll with a limit does one of five things, and the deadline that it looks at is the first one
that was fixed. -/
theorem timed_pollTimeout (p : Promise ω α) (timer : Timer ω) (w : ω) (allowed : Span)
    (started compared registered : Instant) :
    Timed p timer w allowed (p.deadline.getD (deadlineAfter started allowed)) compared registered
      (p.pollTimeout w allowed started compared registered timer) := by
  obtain ⟨slot, waker, limit, armed⟩ := p
  rw [pollTimeout]
  generalize (Promise.mk slot waker limit armed).deadline.getD (deadlineAfter started allowed) =
    deadline
  -- a value is handed out even when it comes too late
  cases slot with
  | ready value => exact .value value rfl
  | taken => exact .gone rfl
  | pending =>
      simp only [pollTake]
      by_cases hlate : deadline ≤ compared
      · rw [if_pos hlate]
        exact .late rfl hlate
      · rw [if_neg hlate]
        cases armed with
        | true => exact .again rfl hlate rfl
        | false => exact .first rfl hlate rfl

/-! ## A diary -/

/-- A promise that is waited for, the timer, and the time. -/
structure Wait (ω α : Type) where
  promise : Promise ω α
  timer : Timer ω
  now : Instant

/-- What can happen while a promise is waited for. -/
inductive Wait.Event (ω α : Type) where
  | resolve (value : α)
  | tryTake
  | poll (w : ω)
  /-- A poll with a limit; some time passes until the deadline is looked at, and some more until
  the timer looks at it. -/
  | pollTimeout (w : ω) (allowed : Span) (looking registering : Span)
  /-- Somebody sets an alarm of theirs. -/
  | book (deadline : Instant) (w : ω)
  | elapse (t : Span)
  /-- The timer passes over its alarms. -/
  | pass

namespace Wait

def start (now : Instant) : Wait ω α := ⟨{}, {}, now⟩

/-- What comes of an event. -/
def perform (s : Wait ω α) : Event ω α → Outcome ω (Wait ω α) (Reply α)
  | .resolve value =>
    let o := s.promise.resolve value
    ⟨{ s with promise := o.state }, o.effects, .resolved o.answer⟩
  | .tryTake => ⟨{ s with promise := s.promise.tryTake.1 }, [], .taken s.promise.tryTake.2⟩
  | .poll w => ⟨{ s with promise := (s.promise.pollTake w).1 }, [], .polled (s.promise.pollTake w).2⟩
  | .pollTimeout w allowed looking registering =>
    let compared := s.now.plus looking
    let registered := compared.plus registering
    let o := s.promise.pollTimeout w allowed s.now compared registered s.timer
    ⟨⟨o.state.1, o.state.2, registered⟩, o.effects, .polled o.answer⟩
  | .book deadline w =>
    let o := s.timer.register s.now deadline w
    ⟨{ s with timer := o.state }, o.effects, .done⟩
  | .elapse t => ⟨{ s with now := s.now.plus t }, [], .done⟩
  | .pass =>
    let o := s.timer.pass s.now
    ⟨{ s with timer := o.state }, o.effects, .done⟩

/-- A page of a diary: an event. -/
structure Page (ω α : Type) where
  event : Event ω α
  began : Instant
  ended : Instant
  effects : List (Effect ω)
  reply : Reply α
  /-- The alarms that were set. -/
  alarms : List (Alarm ω)

def page (s : Wait ω α) (event : Event ω α) : Page ω α :=
  let o := s.perform event
  ⟨event, s.now, o.state.now, o.effects, o.answer,
    o.state.timer.alarms.drop s.timer.alarms.length⟩

namespace Page

def offered? (x : Page ω α) : Option α :=
  match x.event with
  | .resolve value => some value
  | _ => none

/-- The deadline that a poll with a limit would fix. -/
def limit? (x : Page ω α) : Option Instant :=
  match x.event with
  | .pollTimeout _ allowed _ _ => some (deadlineAfter x.began allowed)
  | _ => none

/-- The waker of a poll with a limit that goes on to wait. -/
def waiting? (x : Page ω α) : Option ω :=
  match x.event, x.reply with
  | .pollTimeout w _ _ _, .polled .pending => some w
  | _, _ => none

/-- The waker of a poll that found nothing; one that comes too late leaves its waker, too. -/
def left? (x : Page ω α) : Option ω :=
  match x.event, x.reply with
  | .poll w, .polled .pending | .pollTimeout w _ _ _, .polled .pending
  | .pollTimeout w _ _ _, .polled (.ready (.error (.awaitTimeout _))) => some w
  | _, _ => none

/-- The wakers that a poll with a limit gave to the timer, which fires them at once or sets an
alarm. -/
def given (x : Page ω α) : List ω :=
  match x.event with
  | .pollTimeout .. => wakesOf x.effects ++ x.alarms.map (·.waker)
  | _ => []

/-- Whether this is a pass at or after the deadline of an alarm. -/
def Reaches (a : Alarm ω) (x : Page ω α) : Prop :=
  match x.event with
  | .pass => a.deadline ≤ x.began
  | _ => False

end Page

end Wait

/-- A wait with all that happened, oldest first. -/
structure Diary (ω α : Type) where
  wait : Wait ω α
  pages : List (Wait.Page ω α)

namespace Diary

def next (r : Diary ω α) (event : Wait.Event ω α) : Diary ω α :=
  ⟨(r.wait.perform event).state, r.pages ++ [r.wait.page event]⟩

def offers (r : Diary ω α) : List α := r.pages.filterMap Wait.Page.offered?

def handed (r : Diary ω α) : List α := r.pages.filterMap (·.reply.handed?)

/-- The deadline of the first poll with a limit. -/
def limit? (r : Diary ω α) : Option Instant := (r.pages.filterMap Wait.Page.limit?).head?

def waiting (r : Diary ω α) : List ω := r.pages.filterMap Wait.Page.waiting?

def left (r : Diary ω α) : List ω := r.pages.filterMap Wait.Page.left?

def given (r : Diary ω α) : List ω := r.pages.flatMap Wait.Page.given

/-- An alarm was set, and since then no pass has come for it. -/
def IsSet (r : Diary ω α) (a : Alarm ω) : Prop :=
  Since (fun x => a ∈ x.alarms) (Wait.Page.Reaches a) r.pages

end Diary

/-- The diary of what happened to a new promise. -/
def diary (now : Instant) (events : List (Wait.Event ω α)) : Diary ω α :=
  events.foldl Diary.next ⟨.start now, []⟩

/-! ## One event -/

namespace Wait

theorem timed (s : Wait ω α) (w : ω) (allowed looking registering : Span) :
    Timed s.promise s.timer w allowed (s.promise.deadline.getD (deadlineAfter s.now allowed))
      (s.now.plus looking) ((s.now.plus looking).plus registering)
      (s.promise.pollTimeout w allowed s.now (s.now.plus looking)
        ((s.now.plus looking).plus registering) s.timer) :=
  timed_pollTimeout ..

/-- Whatever is done to a promise, its slot makes one of the moves. -/
theorem move_perform (s : Wait ω α) (event : Event ω α) :
    Move s.promise.slot (s.page event).offered? (s.perform event).answer.handed?
      (s.perform event).state.promise.slot := by
  cases event with
  | resolve value => exact move_resolve s.promise value
  | tryTake => exact move_tryTake s.promise
  | poll w => exact move_pollTake s.promise w
  | pollTimeout w allowed looking registering =>
      have h := s.timed w allowed looking registering
      simp only [perform, page, Page.offered?]
      generalize s.promise.pollTimeout _ _ _ _ _ _ = o at h
      cases h with
      -- a poll in time takes the value; the others leave the slot alone
      | value value hslot =>
          rw [hslot]
          exact .taking value
      | gone | late | again | first => exact .still _
  | book | elapse | pass => exact .still _

/-- The first poll with a limit fixes the deadline, and nothing moves it afterwards. -/
theorem deadline_perform (s : Wait ω α) (event : Event ω α) :
    (s.perform event).state.promise.deadline = s.promise.deadline.or (s.page event).limit? := by
  cases event with
  | resolve value =>
      simp only [perform, page, Page.limit?, Option.or_none, resolve]
      split <;> rfl
  | tryTake =>
      simp only [perform, page, Page.limit?, Option.or_none, tryTake]
      split <;> rfl
  | poll w =>
      simp only [perform, page, Page.limit?, Option.or_none, pollTake]
      split <;> rfl
  | pollTimeout w allowed looking registering =>
      have h := s.timed w allowed looking registering
      have hfixed : s.promise.deadline.or (some (deadlineAfter s.now allowed)) =
          some (s.promise.deadline.getD (deadlineAfter s.now allowed)) := by
        cases s.promise.deadline <;> rfl
      simp only [perform, page, Page.limit?, hfixed]
      generalize s.promise.pollTimeout _ _ _ _ _ _ = o at h
      cases h <;> rfl
  | book | elapse | pass => exact Option.or_none.symm

/-- As long as nothing is offered, the waker left last is the one that is there. -/
theorem waker_perform (s : Wait ω α) (event : Event ω α)
    (hslot : (s.perform event).state.promise.slot = .pending) :
    s.promise.slot = .pending ∧
      (s.perform event).state.promise.waker = (s.page event).left?.or s.promise.waker := by
  cases event with
  -- where the slot is still empty afterwards, nothing was offered
  | resolve value =>
      cases hbefore : s.promise.slot with
      | pending => simp [perform, resolve, hbefore] at hslot
      | ready _ | taken => simp [perform, resolve, hbefore] at hslot
  | tryTake =>
      cases hbefore : s.promise.slot with
      | pending => simp [perform, page, Page.left?, tryTake, hbefore]
      | ready _ | taken => simp [perform, tryTake, hbefore] at hslot
  | poll w =>
      cases hbefore : s.promise.slot with
      | pending => simp [perform, page, Page.left?, pollTake, hbefore]
      | ready _ | taken => simp [perform, pollTake, hbefore] at hslot
  | pollTimeout w allowed looking registering =>
      have h := s.timed w allowed looking registering
      simp only [perform, page, Page.left?] at hslot ⊢
      generalize s.promise.pollTimeout _ _ _ _ _ _ = o at h hslot
      -- a poll that comes too late waits no longer, but leaves its waker as the others do
      cases h with
      | value => cases hslot
      | gone hbefore => cases hbefore.symm.trans hslot
      | late hbefore | again hbefore | first hbefore => exact ⟨hbefore, rfl⟩
  | book | elapse | pass => exact ⟨hslot, rfl⟩

/-- The timer is armed with the first waiter that has a limit. -/
theorem armed_perform (s : Wait ω α) (event : Event ω α) :
    (s.perform event).state.promise.armed =
      (s.promise.armed || (s.page event).waiting?.isSome) := by
  cases event with
  | resolve value =>
      simp only [perform, page, Page.waiting?, Option.isSome_none, Bool.or_false, resolve]
      split <;> rfl
  | tryTake =>
      simp only [perform, page, Page.waiting?, Option.isSome_none, Bool.or_false, tryTake]
      split <;> rfl
  | poll w =>
      simp only [perform, page, Page.waiting?, Option.isSome_none, Bool.or_false, pollTake]
      split <;> rfl
  | pollTimeout w allowed looking registering =>
      have h := s.timed w allowed looking registering
      simp only [perform, page, Page.waiting?]
      generalize s.promise.pollTimeout _ _ _ _ _ _ = o at h
      cases h with
      | value | gone | late => simp
      | again _ _ harmed | first _ _ harmed => simp [harmed]
  | book | elapse | pass => exact (Bool.or_false _).symm

/-- A waker goes to the timer if it is the first to wait. -/
theorem given_page (s : Wait ω α) (event : Event ω α) :
    (s.page event).given = if s.promise.armed then [] else (s.page event).waiting?.toList := by
  cases event with
  | pollTimeout w allowed looking registering =>
      have h := s.timed w allowed looking registering
      simp only [perform, page, Page.given, Page.waiting?]
      generalize s.promise.pollTimeout _ _ _ _ _ _ = o at h
      cases h with
      | value | gone | late => simp
      | again _ _ harmed => simp [harmed]
      | first _ _ harmed =>
          -- the waker is fired at once, if it is too late or the timer is shut down, or set
          rw [Timer.register_eq]
          split
          · simp [harmed]
          · split
            · simp [harmed]
            · simp [harmed, Timer.book]
  | _ => exact (ite_self _).symm

/-- What a poll with a limit asks of the timer is meant for the deadline of the promise. -/
theorem alarms_page (s : Wait ω α) (event : Event ω α) (htimed : (s.page event).limit?.isSome)
    {a : Alarm ω} (ha : a ∈ (s.page event).alarms) :
    (s.perform event).state.promise.deadline = some a.deadline := by
  cases event with
  | pollTimeout w allowed looking registering =>
      have h := s.timed w allowed looking registering
      simp only [perform, page] at ha ⊢
      generalize s.promise.pollTimeout _ _ _ _ _ _ = o at h ha
      cases h with
      | value | gone | late | again => simp at ha
      -- only the first waiter sets anything, and only if the deadline is still to come
      | first =>
          rw [Timer.register_eq] at ha
          split at ha
          · simp at ha
          · split at ha
            · simp at ha
            · simp [Timer.book] at ha
              rw [ha]
  | _ => cases htimed

/-- A poll with a limit wakes nobody but whoever registers after the deadline. -/
theorem effects_page (s : Wait ω α) (hopen : s.timer.isShut = false) (event : Event ω α)
    (htimed : (s.page event).limit?.isSome) (heffects : (s.page event).effects ≠ []) :
    ∃ deadline ≤ (s.page event).ended,
      (s.perform event).state.promise.deadline = some deadline := by
  cases event with
  | pollTimeout w allowed looking registering =>
      have h := s.timed w allowed looking registering
      simp only [perform, page] at heffects ⊢
      generalize s.promise.pollTimeout _ _ _ _ _ _ = o at h heffects
      cases h with
      | value | gone | late | again => exact absurd rfl heffects
      | first =>
          rw [Timer.register_eq, hopen] at heffects
          split at heffects
          · next hover => exact ⟨_, hover, rfl⟩
          · exact absurd rfl heffects
  | _ => cases htimed

/-- Setting an alarm does not shut a timer down. -/
theorem isShut_register (t : Timer ω) (now deadline : Instant) (w : ω) :
    (t.register now deadline w).state.isShut = t.isShut := by
  rw [Timer.register_eq]
  split
  · rfl
  · split <;> rfl

/-- An alarm that is set displaces no other. -/
theorem alarms_subset_register (t : Timer ω) (now deadline : Instant) (w : ω) :
    t.alarms ⊆ (t.register now deadline w).state.alarms := by
  rw [Timer.register_eq]
  split
  · exact List.Subset.refl _
  · split
    · exact List.Subset.refl _
    · exact List.subset_append_left _ _

/-- Nothing that is done to a promise shuts its timer down. -/
theorem isShut_perform (s : Wait ω α) (event : Event ω α) :
    (s.perform event).state.timer.isShut = s.timer.isShut := by
  cases event with
  | pollTimeout w allowed looking registering =>
      have h := s.timed w allowed looking registering
      simp only [perform]
      generalize s.promise.pollTimeout _ _ _ _ _ _ = o at h
      cases h with
      | first => exact isShut_register ..
      | _ => rfl
  | book => exact isShut_register ..
  | _ => rfl

/-- Alarms stay until a pass comes for them. -/
theorem mem_alarms_perform (s : Wait ω α) (hopen : s.timer.isShut = false) (event : Event ω α)
    {a : Alarm ω}
    (ha : a ∈ (s.page event).alarms ∨ a ∈ s.timer.alarms ∧ ¬ (s.page event).Reaches a) :
    a ∈ (s.perform event).state.timer.alarms := by
  rcases ha with hnew | ⟨hold, hreaches⟩
  · exact List.mem_of_mem_drop hnew
  -- what was set stays until a pass reaches it
  cases event with
  | pollTimeout w allowed looking registering =>
      have h := s.timed w allowed looking registering
      simp only [perform]
      generalize s.promise.pollTimeout _ _ _ _ _ _ = o at h
      cases h with
      | first => exact alarms_subset_register _ _ _ _ hold
      | _ => exact hold
  | book => exact alarms_subset_register _ _ _ _ hold
  | pass =>
      have hearly : ¬ s.timer.isDue s.now a = true := by
        rw [Timer.isDue_iff, hopen]
        exact fun hdue => hreaches (hdue.resolve_right Bool.false_ne_true)
      exact List.mem_filter.mpr ⟨hold, by simp [hearly]⟩
  | _ => exact hold

end Wait

/-! ## Every diary -/

/-- Nobody has made an offer exactly while the slot is empty. -/
theorem Agrees.eq_pending_iff {slot : Slot α} {offers handed : List α}
    (h : Agrees slot offers handed) : slot = .pending ↔ offers = [] := by
  cases h <;> simp

namespace Diary

variable (r : Diary ω α) (event : Wait.Event ω α)

/-- What one more event adds to the offers; so for the other columns below. -/
theorem offers_next : (r.next event).offers = r.offers ++ (r.wait.page event).offered?.toList :=
  filterMap_snoc ..

theorem handed_next :
    (r.next event).handed = r.handed ++ (r.wait.page event).reply.handed?.toList :=
  filterMap_snoc ..

theorem waiting_next :
    (r.next event).waiting = r.waiting ++ (r.wait.page event).waiting?.toList :=
  filterMap_snoc ..

theorem left_next : (r.next event).left = r.left ++ (r.wait.page event).left?.toList :=
  filterMap_snoc ..

theorem given_next : (r.next event).given = r.given ++ (r.wait.page event).given := by
  simp [given, next]

theorem limit?_next : (r.next event).limit? = r.limit?.or (r.wait.page event).limit? := by
  rw [limit?, next, filterMap_snoc, List.head?_append, Option.head?_toList]
  rfl

variable {r}

/-- A diary tells the state of the promise, its deadline and who is to be woken. -/
structure Telling (r : Diary ω α) : Prop where
  agrees : Agrees r.wait.promise.slot r.offers r.handed
  deadline_eq : r.wait.promise.deadline = r.limit?
  waker_eq : r.wait.promise.slot = .pending → r.wait.promise.waker = r.left.getLast?
  armed_eq : r.wait.promise.armed = !r.waiting.isEmpty
  given_eq : r.given = r.waiting.take 1
  isShut_eq : r.wait.timer.isShut = false
  alarms : ∀ x ∈ r.pages, x.limit?.isSome → ∀ a ∈ x.alarms, r.limit? = some a.deadline
  rung : ∀ x ∈ r.pages, x.limit?.isSome → x.effects ≠ [] →
    ∃ deadline ≤ x.ended, r.limit? = some deadline
  set : ∀ a, r.IsSet a → a ∈ r.wait.timer.alarms

/-- An empty diary tells all there is to tell. -/
theorem telling_start (now : Instant) : (⟨.start now, []⟩ : Diary ω α).Telling where
  agrees := .pending
  deadline_eq := rfl
  waker_eq := fun _ => rfl
  armed_eq := rfl
  given_eq := rfl
  isShut_eq := rfl
  alarms := fun _ hx => nomatch hx
  rung := fun _ hx => nomatch hx
  set := fun _ hset => absurd hset not_since_nil

/-- One more event keeps the diary true, column by column. -/
theorem Telling.next (h : r.Telling) (event : Wait.Event ω α) : (r.next event).Telling where
  agrees := by
    rw [offers_next, handed_next]
    exact h.agrees.move (r.wait.move_perform event)
  deadline_eq := by
    rw [limit?_next, ← h.deadline_eq]
    exact r.wait.deadline_perform event
  waker_eq := by
    intro hslot
    -- a waker counts only while there is nothing to take
    obtain ⟨hbefore, hwaker⟩ := r.wait.waker_perform event hslot
    rw [left_next, List.getLast?_append, ← h.waker_eq hbefore]
    refine hwaker.trans ?_
    cases (r.wait.page event).left? <;> rfl
  armed_eq := by
    rw [waiting_next]
    refine (r.wait.armed_perform event).trans ?_
    rw [h.armed_eq]
    cases (r.wait.page event).waiting? <;> simp
  given_eq := by
    rw [given_next, waiting_next, h.given_eq, Wait.given_page, h.armed_eq]
    cases r.waiting with
    | nil => cases (r.wait.page event).waiting? <;> rfl
    | cons w rest => simp
  isShut_eq := (r.wait.isShut_perform event).trans h.isShut_eq
  alarms := by
    intro x hx htimed a ha
    rw [limit?_next]
    -- the limit is fixed once, so what was set for it before is set for it still
    rcases List.mem_append.mp hx with hold | hnew
    · rw [h.alarms x hold htimed a ha]
      rfl
    · obtain rfl := List.mem_singleton.mp hnew
      rw [← h.deadline_eq, ← r.wait.deadline_perform event]
      exact r.wait.alarms_page event htimed ha
  rung := by
    intro x hx htimed heffects
    rw [limit?_next]
    rcases List.mem_append.mp hx with hold | hnew
    · obtain ⟨deadline, hover, hlimit⟩ := h.rung x hold htimed heffects
      exact ⟨deadline, hover, by rw [hlimit, Option.some_or]⟩
    · obtain rfl := List.mem_singleton.mp hnew
      obtain ⟨deadline, hover, hfixed⟩ := r.wait.effects_page h.isShut_eq event htimed heffects
      exact ⟨deadline, hover, by rw [← hfixed, ← h.deadline_eq, r.wait.deadline_perform event]⟩
  set := by
    intro a ha
    refine r.wait.mem_alarms_perform h.isShut_eq event ?_
    exact (since_snoc.mp ha).imp_right fun hold => ⟨h.set a hold.1, hold.2⟩

/-- So a diary is true from its first page to its last. -/
theorem telling_diary (now : Instant) (events : List (Wait.Event ω α)) :
    (diary now events).Telling := by
  suffices h : ∀ r : Diary ω α, r.Telling → (events.foldl next r).Telling from
    h _ (telling_start now)
  induction events with
  | nil => exact fun r h => h
  | cons event rest ih => exact fun r h => ih (r.next event) (h.next event)

/-! ## The promise of a wait with a limit -/

/-- What is always so. -/
structure IsFaithful (r : Diary ω α) : Prop where
  /-- The deadline is the one that the first poll with a limit fixed. -/
  deadline_eq : r.wait.promise.deadline = r.limit?
  /-- A value is handed out even after the deadline; without an offer the deadline decides. -/
  pollTimeout_eq : ∀ w allowed looking registering,
    (r.wait.perform (.pollTimeout w allowed looking registering)).answer = .polled
      (match due r.offers r.handed with
        | some result => .ready result
        | none =>
          if r.limit?.getD (deadlineAfter r.wait.now allowed) ≤ r.wait.now.plus looking then
            .ready (.error (.awaitTimeout allowed))
          else .pending)
  /-- The first offer wakes whoever left the last waker, and no other offer wakes anybody. -/
  resolve_eq : ∀ value, (r.wait.perform (.resolve value)).effects =
    if r.offers = [] then Effect.wakes r.left.getLast? else []
  /-- The timer is given the waker of the first poll that goes on to wait, and no other. -/
  given_eq : r.given = r.waiting.take 1
  /-- It sets an alarm for the deadline, unless that is over by then. -/
  alarms : ∀ x ∈ r.pages, x.limit?.isSome → ∀ a ∈ x.alarms, r.limit? = some a.deadline
  rung : ∀ x ∈ r.pages, x.limit?.isSome → x.effects ≠ [] →
    ∃ deadline ≤ x.ended, r.limit? = some deadline
  /-- The alarm stays until the first pass at or after its deadline, which fires it. -/
  set : ∀ a, r.IsSet a → a ∈ r.wait.timer.alarms
  fires : ∀ a, r.IsSet a → a.deadline ≤ r.wait.now →
    .wake a.waker ∈ (r.wait.perform .pass).effects

/-- Whoever waits will be woken, or somebody who came to wait later: by the timer at the deadline,
and by the first offer if there was none. -/
def IsCovered (r : Diary ω α) : Prop :=
  ∀ earlier w later, r.waiting = earlier ++ w :: later →
    (∃ w' ∈ w :: later, r.given = [w']) ∧
      (r.offers = [] → ∀ value, ∃ w' ∈ w :: later,
        (r.wait.perform (.resolve value)).effects = [.wake w'])

/-- What a poll with a limit answers can be read off the diary. -/
theorem Telling.pollTimeout_eq (h : r.Telling) (w : ω) (allowed looking registering : Span) :
    (r.wait.perform (.pollTimeout w allowed looking registering)).answer = .polled
      (match due r.offers r.handed with
        | some result => .ready result
        | none =>
          if r.limit?.getD (deadlineAfter r.wait.now allowed) ≤ r.wait.now.plus looking then
            .ready (.error (.awaitTimeout allowed))
          else .pending) := by
  have hpoll := r.wait.timed w allowed looking registering
  have hdue := h.agrees.look_eq
  rw [h.deadline_eq] at hpoll
  simp only [Wait.perform, ← hdue]
  generalize r.wait.promise.pollTimeout _ _ _ _ _ _ = o at hpoll
  cases hpoll with
  | value value hslot => simp [look, hslot]
  | gone hslot => simp [look, hslot]
  | late hslot hlate => simp [look, hslot, hlate]
  | again hslot hearly => simp [look, hslot, hearly]
  | first hslot hearly => simp [look, hslot, hearly]

/-- The first offer fires the waker that was left last, a later one fires nobody. -/
theorem Telling.resolve_eq (h : r.Telling) (value : α) :
    (r.wait.perform (.resolve value)).effects =
      if r.offers = [] then Effect.wakes r.left.getLast? else [] := by
  have hpending := h.agrees.eq_pending_iff
  simp only [Wait.perform]
  by_cases hslot : r.wait.promise.slot = .pending
  · rw [if_pos (hpending.mp hslot), ← h.waker_eq hslot, resolve, hslot]
  · rw [if_neg fun hnone => hslot (hpending.mpr hnone)]
    have hresolved : r.wait.promise.isResolved = true := by
      cases hs : r.wait.promise.slot with
      | pending => exact absurd hs hslot
      | ready _ | taken => simp [isResolved, hs]
    rw [resolve_settled _ _ hresolved]

/-- Whoever keeps a diary knows what is going to happen. -/
theorem Telling.isFaithful (h : r.Telling) : r.IsFaithful where
  deadline_eq := h.deadline_eq
  pollTimeout_eq := h.pollTimeout_eq
  resolve_eq := h.resolve_eq
  given_eq := h.given_eq
  alarms := h.alarms
  rung := h.rung
  set := h.set
  fires := by
    intro a ha hover
    -- what is set for an instant that has passed is due
    have hdue : a ∈ r.wait.timer.due r.wait.now :=
      Timer.mem_due.mpr ⟨h.set a ha, Timer.isDue_iff.mpr (.inl hover)⟩
    exact List.mem_map_of_mem hdue

/-- Someone from each place on is such if and only if the last one is. -/
theorem forall_splits_iff (P : ω → Prop) (ws : List ω) :
    (∀ earlier w later, ws = earlier ++ w :: later → ∃ w' ∈ w :: later, P w') ↔
      ∀ w, ws.getLast? = some w → P w := by
  constructor
  · intro h w hlast
    obtain ⟨earlier, rfl⟩ := List.getLast?_eq_some_iff.mp hlast
    obtain ⟨w', hw', hP⟩ := h earlier w [] rfl
    rwa [List.mem_singleton.mp hw'] at hP
  · rintro h earlier w later rfl
    refine ⟨(w :: later).getLast (List.cons_ne_nil _ _), List.getLast_mem _, h _ ?_⟩
    rw [List.getLast?_append_of_ne_nil _ (List.cons_ne_nil _ _), List.getLast?_eq_some_getLast]

/-- The last waiter is covered exactly if it is the first one as well, and its waker the last that
was left. -/
theorem Telling.isCovered_iff [Inhabited α] (h : r.Telling) :
    r.IsCovered ↔ ∀ w, r.waiting.getLast? = some w →
      r.waiting.head? = some w ∧ (r.offers = [] → r.left.getLast? = some w) := by
  -- the timer was given the first waiter, whoever waits now
  have hgiven : ∀ w, r.given = [w] ↔ r.waiting.head? = some w := by
    intro w
    rw [h.given_eq]
    cases r.waiting <;> simp
  -- an offer wakes the one whose waker was left last
  have hresolve : r.offers = [] → ∀ value w,
      (r.wait.perform (.resolve value)).effects = [.wake w] ↔ r.left.getLast? = some w := by
    intro hnone value w
    rw [h.resolve_eq, if_pos hnone]
    cases r.left.getLast? <;> simp [Effect.wakes]
  constructor
  · intro hcovered w hlast
    constructor
    · have htimer := forall_splits_iff (fun w => r.given = [w]) r.waiting
      refine (hgiven w).mp (htimer.mp (fun earlier w later hsplit => ?_) w hlast)
      exact (hcovered earlier w later hsplit).1
    · intro hnone
      -- any value will do to find out whom an offer wakes
      have hoffer := forall_splits_iff
        (fun w => (r.wait.perform (.resolve default)).effects = [.wake w]) r.waiting
      refine (hresolve hnone default w).mp (hoffer.mp (fun earlier w later hsplit => ?_) w hlast)
      exact (hcovered earlier w later hsplit).2 hnone default
  · intro hlast earlier w later hsplit
    constructor
    · refine (forall_splits_iff _ r.waiting).mpr (fun w hw => ?_) earlier w later hsplit
      exact (hgiven w).mpr (hlast w hw).1
    · intro hnone value
      refine (forall_splits_iff _ r.waiting).mpr (fun w hw => ?_) earlier w later hsplit
      exact (hresolve hnone value w).mpr ((hlast w hw).2 hnone)

end Diary

/-- A wait with a limit keeps its deadline, answers by it and by what was offered, and will be
woken in time, exactly as long as who came first to wait is also who came last, and nobody else
has left a waker since. -/
theorem diary_isCovered_iff [Inhabited α] (now : Instant) (events : List (Wait.Event ω α)) :
    let r := diary now events
    r.IsFaithful ∧
      (r.IsCovered ↔ ∀ w, r.waiting.getLast? = some w →
        r.waiting.head? = some w ∧ (r.offers = [] → r.left.getLast? = some w)) := by
  have h := Diary.telling_diary now events
  exact ⟨h.isFaithful, h.isCovered_iff⟩

/-- Of two who wait for one promise, only the first is woken at the deadline. No alarm is left
then, and nothing is offered: the other one waits for ever. -/
theorem second_waiter_forgotten :
    let r : Diary Nat Nat := diary ⟨0⟩ [.pollTimeout 0 ⟨5⟩ ⟨0⟩ ⟨0⟩, .pollTimeout 1 ⟨5⟩ ⟨0⟩ ⟨0⟩,
      .elapse ⟨9⟩]
    r.waiting = [0, 1] ∧ r.limit? = some ⟨5⟩ ∧ (r.wait.perform .pass).effects = [.wake 0] ∧
      (r.wait.perform .pass).state.timer.alarms = [] ∧ ¬ r.IsCovered := by
  refine ⟨by decide, by decide, ?_, by decide, fun hcovered => ?_⟩
  · have halarm : [(⟨⟨5⟩, 1, 0⟩ : Alarm Nat)].mergeSort Alarm.before = [⟨⟨5⟩, 1, 0⟩] :=
      List.mergeSort_singleton _
    exact congrArg (List.map fun a => Effect.wake a.waker) halarm
  obtain ⟨w', hw', hgiven⟩ := (hcovered [0] 1 [] (by decide)).1
  obtain rfl := List.mem_singleton.mp hw'
  exact absurd hgiven (by decide)

end Promise

end Troupe
