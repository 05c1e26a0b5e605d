import Mathlib.Data.List.Infix
import Troupe.Proofs.Scheduler.Capacity

/-!
# The slot and the stack

A worker that looks for a task of its own prefers the slot to the stack, and a streak counts how
often it did. Tasks may come into the slot faster than they are run, others push to the stack or rob
it, and visits to the queues come in between; none of that touches the streak. A call that is not
served from the slot below the limit ends it, whatever it finds. Here a worker's calls are written
down, each as the worker was when it called, so that nothing is lost of what happened in between.

* `Worker.serves_takeOwn` — what a call can be;
* `Worker.Kept.call`, `Worker.Kept.act` — the streak counts the calls that favoured the slot last;
* `Worker.record_isFair` — so the slot never starves the stack;
* `Pool.calls_isFair` — nor does it in a pool, where workers do nothing else.
-/

namespace Troupe

variable {τ : Type}

namespace Worker

variable {w w' : Worker τ} {inbox shared : Injector τ}

/-! ## Calls for a task of one's own -/

/-- What a call can be: the answer and what is left. -/
inductive Serves (w : Worker τ) : Worker τ × Option τ → Prop where
  | slot (task : τ) (hnext : w.next = some task) (hstreak : w.streak < longestStreak) :
      Serves w ({ w with next := none, streak := w.streak + 1 }, some task)
  | stack (task : τ) (rest : List τ) (hstack : w.stack = task :: rest) :
      Serves w ({ w with stack := rest, streak := 0 }, some task)
  /-- The streak is over, but there is nothing else. -/
  | last (task : τ) (hstack : w.stack = []) (hnext : w.next = some task) :
      Serves w ({ w with next := none, streak := 0 }, some task)
  | nothing (hstack : w.stack = []) (hnext : w.next = none) :
      Serves w ({ w with streak := 0 }, none)

/-- A task from the next slot is served from the slot. -/
theorem serves_takeNext {task : τ} (h : w.takeNext = some (w', task)) :
    w.Serves (w', some task) := by
  unfold takeNext at h
  split at h
  · next hstreak =>
      split at h
      · next found hnext =>
          obtain ⟨rfl, rfl⟩ := Prod.mk.inj (Option.some.inj h)
          exact .slot found hnext hstreak
      · exact nomatch h
  · exact nomatch h

/-- A task from the stack is served from the stack. -/
theorem serves_takeStack (w : Worker τ) : w.Serves w.takeStack := by
  unfold takeStack
  split
  · next task rest hstack => exact .stack task rest hstack
  · next task hstack hnext => exact .last task hstack hnext
  · next hstack hnext => exact .nothing hstack hnext

/-- A worker's own task is served from slot or stack, as the streak allows. -/
theorem serves_takeOwn (w : Worker τ) : w.Serves w.takeOwn := by
  unfold takeOwn
  split
  · next hnext => exact serves_takeNext hnext
  · exact w.serves_takeStack

/-- The call of such a worker is served from the slot. -/
def ServesSlot (w : Worker τ) : Prop :=
  ∃ task, w.next = some task ∧ w.takeOwn.2 = some task ∧ w.takeOwn.1.next = none ∧
    w.takeOwn.1.stack = w.stack

/-- The call of such a worker is served from the top of the stack. -/
def ServesStack (w : Worker τ) : Prop :=
  ∃ task rest, w.stack = task :: rest ∧ w.takeOwn.2 = some task ∧ w.takeOwn.1.stack = rest ∧
    w.takeOwn.1.next = w.next

/-- The call is served from the slot while something lies on the stack. -/
def FavoursSlot (w : Worker τ) : Prop := w.stack ≠ [] ∧ w.ServesSlot

/-- A call that favours the slot lengthens the streak. -/
theorem FavoursSlot.streak (h : w.FavoursSlot) :
    w.streak < longestStreak ∧ w.takeOwn.1.streak = w.streak + 1 := by
  obtain ⟨hstack, task, hnext, -, -, hkept⟩ := h
  have hserves := w.serves_takeOwn
  generalize w.takeOwn = served at hserves hkept ⊢
  cases hserves with
  | slot task hnext hstreak => exact ⟨hstreak, rfl⟩
  | stack task rest hcons =>
      have hshorter : rest = task :: rest := hkept.trans hcons
      exact absurd hshorter.symm (List.cons_ne_self task rest)
  | last task hnil _ => exact absurd hnil hstack
  | nothing hnil _ => exact absurd hnil hstack

/-- Where something lies on the stack, it is the slot or the stack that serves. -/
theorem servesSlot_or_servesStack (hstack : w.stack ≠ []) : w.ServesSlot ∨ w.ServesStack := by
  have hserves := w.serves_takeOwn
  unfold ServesSlot ServesStack
  generalize w.takeOwn = served at hserves ⊢
  cases hserves with
  | slot task hnext _ => exact .inl ⟨task, hnext, rfl, rfl, rfl⟩
  | stack task rest hcons => exact .inr ⟨task, rest, hcons, rfl, rfl, rfl⟩
  | last task hnil _ => exact absurd hnil hstack
  | nothing hnil _ => exact absurd hnil hstack

/-- A call finds nothing exactly if there is nothing. -/
theorem takeOwn_snd_eq_none_iff (w : Worker τ) :
    w.takeOwn.2 = none ↔ w.stack = [] ∧ w.next = none := by
  constructor
  · intro hnone
    have hcall : w.takeOwn = (w.takeOwn.1, none) := Prod.ext rfl hnone
    exact takeOwn_eq_none hcall
  · rintro ⟨hstack, hnext⟩
    have hserves := w.serves_takeOwn
    generalize w.takeOwn = served at hserves ⊢
    cases hserves with
    | slot task hsome _ => exact nomatch hnext.symm.trans hsome
    | stack task rest hcons => exact nomatch hstack.symm.trans hcons
    | last task _ hsome => exact nomatch hnext.symm.trans hsome
    | nothing _ _ => rfl

/-! ## What a worker does -/

/-- Takes the next task to run, and notes the worker as it was when it called for a task of its own,
if it did. -/
def takeNoted (w : Worker τ) (b : Batching τ) (inbox shared : Injector τ) :
    (Worker τ × Injector τ × Injector τ × Option τ) × List (Worker τ) :=
  let w := { w with tick := w.tick + 1 }
  if w.tick % visitInterval = 0 then
    match w.takeRemote b inbox shared with
    | (w, inbox, shared, some task) => ((w, inbox, shared, some task), [])
    | (w, inbox, shared, none) =>
      let (served, task) := w.takeOwn
      ((served, inbox, shared, task), [w])
  else
    match w.takeOwn with
    | (served, some task) => ((served, inbox, shared, some task), [w])
    | (served, none) => (served.takeRemote b inbox shared, [w])

/-- The notes change nothing. -/
theorem takeNoted_fst (w : Worker τ) (b : Batching τ) (inbox shared : Injector τ) :
    (w.takeNoted b inbox shared).1 = w.take b inbox shared := by
  let ticked : Worker τ := { w with tick := w.tick + 1 }
  unfold takeNoted take
  -- the visit is made first or last, and noting the calls changes neither
  by_cases hturn : (w.tick + 1) % visitInterval = 0
  · rw [if_pos hturn, if_pos hturn]
    rcases ticked.takeRemote b inbox shared with ⟨visited, inbox', shared', found⟩
    cases found with
    | some task => rfl
    | none => rfl
  · rw [if_neg hturn, if_neg hturn]
    rcases ticked.takeOwn with ⟨served, found⟩
    cases found with
    | some task => rfl
    | none => rfl

/-- What a worker does, or others do with it. -/
inductive Action (τ : Type) where
  /-- It takes the next task to run, whatever lies in its inbox and in the shared queue, and
  whatever batches these form. -/
  | take (b : Batching τ) (inbox shared : Injector τ)
  /-- A task is put into the slot. The task that it displaces is pushed in a second action. -/
  | place (task : τ)
  /-- A task is pushed onto the stack, unless the stack has reached its capacity. -/
  | push (capacity : Nat) (task : τ)
  /-- It visits the queues. -/
  | visit (b : Batching τ) (inbox shared : Injector τ)
  /-- Thieves leave so many tasks on the stack. -/
  | lose (left : Nat)
  /-- What it robbed elsewhere is put onto its stack. -/
  | load (loot : List τ)

/-- What an action comes to, and the call in it, if there is one. -/
def act (w : Worker τ) : Action τ → Worker τ × List (Worker τ)
  | .take b inbox shared =>
    let ((w, _), calls) := w.takeNoted b inbox shared
    (w, calls)
  | .place task => ((w.placeNext task).1, [])
  | .push capacity task => ((w.push? capacity task).getD w, [])
  | .visit b inbox shared => ((w.takeRemote b inbox shared).1, [])
  | .lose left => ({ w with stack := w.stack.take left }, [])
  | .load loot => (w.stackUp loot, [])

/-- What comes of actions one after another, and the calls in them, oldest first. -/
def run (w : Worker τ) : List (Action τ) → Worker τ × List (Worker τ)
  | [] => (w, [])
  | action :: rest =>
    let (after, calls) := w.act action
    let (last, more) := after.run rest
    (last, calls ++ more)

/-- The calls in a run. -/
def record (w : Worker τ) (actions : List (Action τ)) : List (Worker τ) := (w.run actions).2

theorem run_append (w : Worker τ) (actions more : List (Action τ)) :
    w.run (actions ++ more) =
      (((w.run actions).1.run more).1, (w.run actions).2 ++ ((w.run actions).1.run more).2) := by
  induction actions generalizing w with
  | nil => rfl
  | cons action rest ih =>
      simp only [List.cons_append, run, ih, List.append_assoc]

/-! ## The streak -/

theorem streak_takeRemote (w : Worker τ) (b : Batching τ) (inbox shared : Injector τ) :
    (w.takeRemote b inbox shared).1.streak = w.streak := by
  rw [takeRemote_fst]
  rfl

/-- What an action does to the streak. -/
inductive Streak (w : Worker τ) : Worker τ × List (Worker τ) → Prop where
  | stays (after : Worker τ) (hstreak : after.streak = w.streak) : Streak w (after, [])
  | calls (call after : Worker τ) (hcall : call.streak = w.streak)
      (hstreak : after.streak = call.takeOwn.1.streak) : Streak w (after, [call])

/-- A take leaves the streak or continues it by the one call that it makes. -/
theorem streak_takeNoted (w : Worker τ) (b : Batching τ) (inbox shared : Injector τ) :
    w.Streak ((w.takeNoted b inbox shared).1.1, (w.takeNoted b inbox shared).2) := by
  let ticked : Worker τ := { w with tick := w.tick + 1 }
  have hremote : (ticked.takeRemote b inbox shared).1.streak = w.streak :=
    ticked.streak_takeRemote b inbox shared
  unfold takeNoted
  dsimp only
  split
  · -- the queues come first
    split
    · next after _ _ task hfound =>
        rw [hfound] at hremote
        exact .stays after hremote
    · next visited _ _ hfound =>
        rw [hfound] at hremote
        exact .calls visited _ hremote rfl
  · split
    · next served task hown => exact .calls ticked served rfl (congrArg (·.1.streak) hown).symm
    · next served hown =>
        refine .calls ticked _ rfl ?_
        rw [streak_takeRemote]
        exact (congrArg (·.1.streak) hown).symm

/-- Every act of a worker leaves the streak or continues it by the calls that it makes. -/
theorem streak_act (w : Worker τ) (action : Action τ) : w.Streak (w.act action) := by
  cases action with
  | take b inbox shared => exact w.streak_takeNoted b inbox shared
  | place task => exact .stays _ rfl
  | push capacity task =>
      refine .stays _ ?_
      unfold push?
      split
      · rfl
      · rfl
  | visit b inbox shared => exact .stays _ (w.streak_takeRemote b inbox shared)
  | lose left => exact .stays _ rfl
  | load loot => exact .stays _ rfl

/-- The calls that favoured the slot last are no more than the streak counts, and never were there
more in a row than the longest streak. -/
structure Kept (w : Worker τ) (calls : List (Worker τ)) : Prop where
  recent : ∀ row, row <:+ calls → (∀ call ∈ row, call.FavoursSlot) → row.length ≤ w.streak
  brief : ∀ row, row <:+: calls → (∀ call ∈ row, call.FavoursSlot) → row.length ≤ longestStreak

variable {calls : List (Worker τ)}

theorem kept_nil (w : Worker τ) : w.Kept [] where
  recent row hrow _ := by simp [List.suffix_nil.mp hrow]
  brief row hrow _ := by simp [List.infix_nil.mp hrow]

/-- One more call keeps the streak in step with the rows of favoured calls. -/
theorem Kept.call (h : w.Kept calls) {call after : Worker τ} (hcall : call.streak = w.streak)
    (hstreak : after.streak = call.takeOwn.1.streak) : after.Kept (calls ++ [call]) := by
  -- a row up to this call is a row before it and this call
  have hrecent : ∀ row, row <:+ calls ++ [call] → (∀ call ∈ row, call.FavoursSlot) →
      row.length ≤ after.streak ∧ row.length ≤ longestStreak := by
    intro row hrow hfavours
    rcases List.suffix_concat_iff.mp hrow with rfl | ⟨earlier, rfl, hearlier⟩
    · exact ⟨Nat.zero_le _, Nat.zero_le _⟩
    · have hlength : earlier.length ≤ w.streak :=
        h.recent earlier hearlier fun other hother =>
          hfavours other (List.mem_append_left _ hother)
      obtain ⟨hbelow, hlonger⟩ := (hfavours call (by simp)).streak
      rw [hcall] at hbelow hlonger
      rw [List.length_append, List.length_singleton, hstreak, hlonger]
      exact ⟨Nat.succ_le_succ hlength, Nat.lt_of_le_of_lt hlength hbelow⟩
  constructor
  · exact fun row hrow hfavours => (hrecent row hrow hfavours).1
  · intro row hrow hfavours
    rcases List.infix_concat_iff.mp hrow with hrow | hrow
    · exact (hrecent row hrow hfavours).2
    · exact h.brief row hrow hfavours

/-- One more act of the worker keeps the streak in step. -/
theorem Kept.act (h : w.Kept calls) (action : Action τ) :
    (w.act action).1.Kept (calls ++ (w.act action).2) := by
  have hact := w.streak_act action
  generalize w.act action = done at hact ⊢
  cases hact with
  | stays after hstreak =>
      rw [List.append_nil]
      exact ⟨hstreak ▸ h.recent, h.brief⟩
  | calls call after hcall hstreak => exact h.call hcall hstreak

/-- A whole run of acts keeps the streak in step. -/
theorem Kept.run (h : w.Kept calls) (actions : List (Action τ)) :
    (w.run actions).1.Kept (calls ++ (w.run actions).2) := by
  induction actions generalizing w calls with
  | nil => simpa [Worker.run] using h
  | cons action rest ih =>
      have hrest := ih (h.act action)
      rw [List.append_assoc] at hrest
      exact hrest

/-! ## Fairness -/

/-- What holds of a worker's calls for a task of its own. A row is made of calls that follow one
another, so a call that finds neither a task in the slot nor one on the stack ends it. -/
structure IsFair (calls : List (Worker τ)) : Prop where
  /-- At most three calls in a row are served from the slot while something lies on the stack. -/
  brief : ∀ row, row <:+: calls → (∀ call ∈ row, call.stack ≠ [] ∧ call.ServesSlot) →
    row.length ≤ 3
  /-- Of more than three calls in a row that find something on the stack, one is served from its
  top. -/
  turns : ∀ row, row <:+: calls → (∀ call ∈ row, call.stack ≠ []) → 3 < row.length →
    ∃ call ∈ row, call.ServesStack
  /-- Only who has nothing, neither in the slot nor on the stack, is answered nothing. -/
  bare : ∀ call ∈ calls, call.takeOwn.2 = none ↔ call.stack = [] ∧ call.next = none

/-- What the streak keeps is that no row of favoured calls is too long. -/
theorem Kept.isFair (h : w.Kept calls) : IsFair calls where
  brief := h.brief
  turns row hrow hstack hlong := by
    by_contra hnone
    push Not at hnone
    refine absurd (h.brief row hrow fun call hcall => ?_) (Nat.not_le.mpr hlong)
    exact ⟨hstack call hcall,
      (servesSlot_or_servesStack (hstack call hcall)).resolve_right (hnone call hcall)⟩
  bare call _ := call.takeOwn_snd_eq_none_iff

/-- Three tasks from the slot, and then the one on the stack. -/
example :
    let take : Action Nat := .take .standard {} {}
    let actions := [.place 1, take, .place 2, take, .place 3, take, .place 4, take]
    (record { stack := [0] } actions).map (·.takeOwn.2) = [some 1, some 2, some 3, some 0] := by
  decide

end Worker

namespace Pool

variable {p p' p'' : Pool τ} {index : Nat}

/-! ## Workers in a pool -/

/-- A worker of a pool. -/
def workerAt (p : Pool τ) (index : Nat) : Option (Worker τ) := (p.posts[index]?).map (·.worker)

/-- What was done in a pool was done by actions of its workers, in which a given worker made these
calls. -/
def Acts (index : Nat) (calls : List (Worker τ)) (p p' : Pool τ) : Prop :=
  ∀ w, p.workerAt index = some w →
    ∃ actions w', p'.workerAt index = some w' ∧ w.run actions = (w', calls)

/-- A pool with the same posts has let nobody act. -/
theorem Acts.of_posts (h : p'.posts = p.posts) : Acts index [] p p' := by
  intro w hw
  refine ⟨[], w, ?_, rfl⟩
  rw [workerAt, h]
  exact hw

theorem Acts.refl (p : Pool τ) : Acts index [] p p := .of_posts rfl

theorem Acts.trans {calls more : List (Worker τ)} (h : Acts index calls p p')
    (h' : Acts index more p' p'') : Acts index (calls ++ more) p p'' := by
  intro w hw
  obtain ⟨actions, w', hw', hrun⟩ := h w hw
  obtain ⟨actions', w'', hw'', hrun'⟩ := h' w' hw'
  refine ⟨actions ++ actions', w'', hw'', ?_⟩
  rw [Worker.run_append, hrun, hrun']

/-- After what takes no call. -/
theorem Acts.after {calls : List (Worker τ)} (h' : Acts index calls p' p'')
    (h : Acts index [] p p') : Acts index calls p p'' :=
  h.trans h'

/-- A change to one post, as an action of its worker. -/
theorem acts_alter {place : Nat} {calls : List (Worker τ)} {f : Post τ → Post τ}
    (hother : place ≠ index → calls = [])
    (hf : ∀ post, p.posts[index]? = some post → place = index →
      ∃ actions, post.worker.run actions = ((f post).worker, calls)) :
    Acts index calls p (p.alter place f) := by
  intro w hw
  obtain ⟨post, hpost, rfl⟩ := Option.map_eq_some_iff.mp hw
  by_cases hplace : place = index
  · obtain ⟨actions, hrun⟩ := hf post hpost hplace
    refine ⟨actions, (f post).worker, ?_, hrun⟩
    rw [workerAt, alter, hplace, List.getElem?_modify_eq, hpost]
    rfl
  · refine ⟨[], post.worker, ?_, by rw [hother hplace]; rfl⟩
    rw [workerAt, alter, List.getElem?_modify_ne _ _ hplace, hpost]
    rfl

/-- A change to one post that leaves its worker alone. -/
theorem acts_around {place : Nat} {f : Post τ → Post τ}
    (hf : ∀ post, (f post).worker = post.worker) : Acts index [] p (p.alter place f) :=
  acts_alter (fun _ => rfl) fun post _ _ => ⟨[], by rw [hf]; rfl⟩

theorem acts_publish {place : Nat} : Acts index [] p (p.publish place) := acts_around fun _ => rfl

theorem acts_pushInbox {place : Nat} (task : τ) : Acts index [] p (p.pushInbox place task) :=
  acts_around fun _ => rfl

theorem acts_notifyIfUnsearched : Acts index [] p p.notifyIfUnsearched := by
  unfold notifyIfUnsearched
  split
  · exact .of_posts rfl
  · exact .refl p

/-- A task pushed to a worker is at most an act of that worker's, and calls for nothing. -/
theorem acts_pushLocal {place : Nat} (task : τ) : Acts index [] p (p.pushLocal place task) := by
  unfold pushLocal
  split
  · exact .of_posts rfl
  · next post hpost =>
      refine Acts.after (acts_publish.trans acts_notifyIfUnsearched) ?_
      split
      · next worker hpush =>
          refine acts_alter (fun _ => rfl) ?_
          rintro other hother rfl
          obtain rfl : post = other := Option.some.inj (hpost.symm.trans hother)
          refine ⟨[.push p.settings.localCapacity task], ?_⟩
          simp [Worker.run, Worker.act, hpush]
      · exact .of_posts rfl

/-- A task for the next slot of a worker is at most an act of that worker. -/
theorem acts_pushNext {place : Nat} (task : τ) : Acts index [] p (p.pushNext place task) := by
  unfold pushNext
  split
  · exact .of_posts rfl
  · next post hpost =>
      have hplaced : Acts index [] p (p.alter place fun post' =>
          { post' with worker := (post.worker.placeNext task).1 }) := by
        refine acts_alter (fun _ => rfl) ?_
        rintro other hother rfl
        obtain rfl : post = other := Option.some.inj (hpost.symm.trans hother)
        exact ⟨[.place task], rfl⟩
      dsimp only
      split
      · exact hplaced.trans (acts_pushLocal _)
      · exact hplaced.trans acts_publish

/-- Scheduling makes nobody call. -/
theorem acts_schedule (task : τ) : Acts index [] p (p.schedule task) := by
  unfold schedule
  split
  · exact acts_pushNext task
  · exact .of_posts rfl

/-- Submitting makes nobody call. -/
theorem acts_submit (task : τ) (destination : Destination) :
    Acts index [] p (p.submit task destination) := by
  unfold submit
  split
  · split
    · split
      · exact acts_pushLocal task
      · exact (acts_pushInbox task).trans (.of_posts rfl)
    · exact .of_posts rfl
  · exact .of_posts rfl

/-- A theft is a loss to the victim, whose calls it does not concern. -/
theorem acts_robOne {thief victim : Nat} {found : τ × List τ}
    (h : p.robOne thief victim = some (p', found)) : Acts index [] p p' := by
  unfold robOne at h
  split at h
  · exact nomatch h
  · next post hpost =>
      split at h
      · exact nomatch h
      · split at h
        · next worker oldest loot hrob =>
            obtain ⟨rfl, -⟩ := Prod.mk.inj (Option.some.inj h)
            refine acts_alter (fun _ => rfl) ?_
            rintro other hother rfl
            obtain rfl : post = other := Option.some.inj (hpost.symm.trans hother)
            obtain ⟨-, rfl⟩ := Worker.rob_eq_some hrob
            exact ⟨[.lose (post.worker.spared p.batching)], rfl⟩
        · obtain ⟨batch, -, hfound⟩ := Option.map_eq_some_iff.mp h
          obtain ⟨rfl, -⟩ := Prod.mk.inj hfound
          exact acts_around fun _ => rfl

/-- A theft from whom one finds is at most a loss to a victim. -/
theorem acts_robAny {thief : Nat} {victims : List Nat} {found : τ × List τ}
    (h : p.robAny thief victims = some (p', found)) : Acts index [] p p' := by
  -- on the victims: who has nothing is passed over
  induction victims with
  | nil =>
      obtain ⟨batch, -, hfound⟩ := Option.map_eq_some_iff.mp h
      obtain ⟨rfl, -⟩ := Prod.mk.inj hfound
      exact .of_posts rfl
  | cons victim rest ih =>
      unfold robAny at h
      split at h
      · next hrob =>
          obtain rfl := Option.some.inj h
          exact acts_robOne hrob
      · exact ih h

theorem acts_beginSearch (h : p.beginSearch = some p') : Acts index [] p p' := by
  unfold beginSearch at h
  split at h
  · obtain rfl := Option.some.inj h
    exact .of_posts rfl
  · exact nomatch h

/-- A steal is a loss to one worker and a load to another; neither calls. -/
theorem acts_steal (thief : Nat) (victims : List Nat) :
    Acts index [] p (p.steal thief victims).1 := by
  unfold steal
  split
  · exact .refl p
  · next searching hsearch =>
      have hlooking : Acts index [] p (searching.setPhase thief .stealing) :=
        (acts_beginSearch hsearch).trans (acts_around fun _ => rfl)
      dsimp only
      split
      · exact hlooking.trans (acts_publish.trans (.of_posts rfl))
      · next robbed task more hrob =>
          have hloaded : Acts index [] robbed (robbed.loaded thief more) :=
            acts_alter (fun _ => rfl) fun post _ _ => ⟨[.load more], rfl⟩
          -- losses come first, then the load, then the worker's state is published
          have hended : Acts index [] p ((robbed.loaded thief more).publish thief).endSearch :=
            (hlooking.trans (acts_robAny hrob)).trans
              (hloaded.trans (acts_publish.trans (.of_posts rfl)))
          dsimp only
          split
          · exact hended
          · exact hended.trans acts_notifyIfUnsearched

theorem acts_park {place : Nat} : Acts index [] p (p.park place) := by
  have hidle : Acts index [] p (p.setPhase place .idle) := acts_around fun _ => rfl
  unfold park
  dsimp only
  split
  · exact hidle
  · exact hidle.trans (.of_posts rfl)

/-! ## The calls of a worker in a pool -/

/-- The calls for a task of its own that a worker makes when an order is obeyed. -/
def callsIn (p : Pool τ) (index : Nat) : Request τ → List (Worker τ)
  | .take taker =>
    if taker = index then
      ((p.posts[index]?).map fun post => (post.worker.takeNoted p.batching post.inbox p.shared).2).getD []
    else []
  | _ => []

/-- The calls of a worker in a run of orders, oldest first. -/
def calls (p : Pool τ) (index : Nat) : List (Order τ) → List (Worker τ)
  | [] => []
  | order :: rest => p.callsIn index order.request ++ (p.obey order).calls index rest

/-- A take is an act of the taker, with the calls that are noted. -/
theorem acts_take (taker : Nat) :
    Acts index (p.callsIn index (.take taker)) p (p.take taker).1 := by
  cases hpost : p.posts[taker]? with
  | none =>
      have hcalls : p.callsIn index (.take taker) = [] := by
        rw [callsIn]
        split
        · next htaker => rw [← htaker, hpost]; rfl
        · rfl
      rw [hcalls, take, hpost]
      exact .refl p
  | some post =>
      let taken := post.worker.take p.batching post.inbox p.shared
      have hafter : (p.take taker).1 = ({ p with shared := taken.2.2.1 }.alter taker fun post =>
          { post with worker := taken.1, inbox := taken.2.1 }).publish taker := by
        simp only [take, hpost, taken]
      -- only the taker's post changes, by the take itself
      have htaken : Acts index (p.callsIn index (.take taker)) p
          ({ p with shared := taken.2.2.1 }.alter taker fun post =>
            { post with worker := taken.1, inbox := taken.2.1 }) := by
        refine acts_alter (p := { p with shared := taken.2.2.1 }) (fun hne => if_neg hne) ?_
        rintro other hother rfl
        obtain rfl : post = other := Option.some.inj (hpost.symm.trans hother)
        refine ⟨[.take p.batching post.inbox p.shared], ?_⟩
        simp only [Worker.run, Worker.act, callsIn, hpost, taken, ← Worker.takeNoted_fst]
        simp
      rw [hafter, ← List.append_nil (p.callsIn index (.take taker))]
      exact htaken.trans acts_publish

/-- Every request is acts of the workers, with the calls it makes. -/
theorem acts_serve (request : Request τ) :
    Acts index (p.callsIn index request) p (p.serve request).1 := by
  cases request with
  | schedule task => exact acts_schedule task
  | submit task destination => exact acts_submit task destination
  | requeue place task =>
      exact (acts_pushInbox task).trans acts_notifyIfUnsearched
  | take taker => exact acts_take taker
  | steal thief victims => exact acts_steal thief victims
  | park place => exact acts_park
  | unpark place => exact .of_posts rfl
  | setPhase place phase => exact acts_around fun _ => rfl
  | recordTurn place alpha elapsed price => exact acts_around fun _ => rfl

/-- Every run of orders is acts of the workers, with the calls they make. -/
theorem acts_run (p : Pool τ) (index : Nat) (orders : List (Order τ)) :
    Acts index (p.calls index orders) p (p.run orders) := by
  induction orders generalizing p with
  | nil => exact .refl p
  | cons order rest ih =>
      -- on whose behalf an order is given concerns no worker
      have hcaller : Acts index [] p (p.onBehalfOf order.caller) := .of_posts rfl
      have hobey : Acts index (p.callsIn index order.request) p (p.obey order) :=
        hcaller.trans (acts_serve order.request)
      exact hobey.trans (ih (p.obey order))

theorem workerAt_eq_none_iff : p.workerAt index = none ↔ p.size ≤ index := by
  rw [workerAt, Option.map_eq_none_iff, List.getElem?_eq_none_iff]
  rfl

/-- Who is no worker makes no calls. -/
theorem calls_eq_nil (h : p.workerAt index = none) (orders : List (Order τ)) :
    p.calls index orders = [] := by
  -- on the orders: none of them brings a worker into being
  induction orders generalizing p with
  | nil => rfl
  | cons order rest ih =>
      have hsize : (p.obey order).size = p.size := size_serve order.request
      have hrest : (p.obey order).workerAt index = none := by
        rw [workerAt_eq_none_iff, hsize]
        exact workerAt_eq_none_iff.mp h
      have hcalls : p.callsIn index order.request = [] := by
        unfold callsIn
        split
        · split
          · rw [Option.map_eq_none_iff.mp h]
            rfl
          · rfl
        · rfl
      rw [calls, hcalls, List.nil_append, ih hrest]

/-- So no worker of a pool starves its stack, whatever is asked for on whose behalf. -/
theorem calls_isFair (p : Pool τ) (index : Nat) (orders : List (Order τ)) :
    Worker.IsFair (p.calls index orders) := by
  cases hw : p.workerAt index with
  | none =>
      rw [calls_eq_nil hw]
      exact (Worker.kept_nil {}).isFair
  | some w =>
      obtain ⟨actions, w', -, hrun⟩ := p.acts_run index orders w hw
      have hkept := (Worker.kept_nil w).run actions
      rw [hrun] at hkept
      exact hkept.isFair

end Pool

end Troupe
