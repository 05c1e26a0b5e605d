import Mathlib.Data.List.Basic
import Troupe.Proofs.Scheduler.Bounds

/-!
# The capacity of stacks

A worker pushes a task onto its stack only below the capacity, and the task goes to the shared
queue otherwise. Nobody measures what comes in batches: when a worker visits its inbox or the
shared queue, and when it robs somebody, all but one of the tasks go onto its stack whatever lies
there. So the capacity is kept in a run exactly when every batch happens to find room.

* `Worker.stack_take` — what a visit puts onto a stack;
* `Pool.steals` — what a steal can be;
* `Pool.isWithinCapacity_serve_iff` — one request keeps the capacity when its batch finds room;
* `Pool.run_isWithinCapacity_iff` — and so does a run of requests;
* `Pool.crowds_of_wide` — with room for the largest batch, only a stack with something on it can
  grow too high.
-/

namespace Troupe

variable {τ : Type}

variable {b : Batching τ}

namespace Injector

/-- The tasks of the next batch beyond the one that is run. -/
def surplus (q : Injector τ) (b : Batching τ) : List τ :=
  ((q.takeBatch b).map fun batch => batch.2.2).getD []

/-- A batch brings no more than the largest batch. -/
theorem length_le_of_takeBatch {q left : Injector τ} {task : τ} {more : List τ}
    (h : q.takeBatch b = some (left, task, more)) : more.length ≤ b.largest := by
  have hlength := (takeBatch_eq_some h).1.length_eq
  rw [List.length_cons, List.length_take, reach] at hlength
  have hle := b.along_le q.gone q.length
  omega

/-- What lies over after the first task is no more than the largest batch. -/
theorem length_surplus_le (q : Injector τ) : (q.surplus b).length ≤ b.largest := by
  unfold surplus
  cases hbatch : q.takeBatch b with
  | none => exact Nat.zero_le _
  | some found => exact length_le_of_takeBatch hbatch

end Injector

namespace Worker

variable {w : Worker τ} {inbox shared : Injector τ}

/-- Whether a worker's next take looks into the queues before it finds a task of its own: in every
so many ticks, and when the worker has none. -/
def visits (w : Worker τ) : Bool :=
  (w.tick + 1) % visitInterval = 0 || (w.stack.isEmpty && w.next.isNone)

/-- The tasks that the next take puts onto the stack. -/
def batch (w : Worker τ) (b : Batching τ) (inbox shared : Injector τ) : List τ :=
  if w.visits then (if inbox.isEmpty then shared else inbox).surplus b else []

/-- Draining a queue stacks up what lies over after the first task. -/
theorem drain_fst (w : Worker τ) (q : Injector τ) :
    (w.drain b q).1 = w.stackUp (q.surplus b) := by
  unfold drain Injector.surplus
  split
  · next hnone => rw [hnone]; rfl
  · next hsome => rw [hsome]; rfl

/-- Draining finds nothing exactly if the queue is empty. -/
theorem drain_found (w : Worker τ) (q : Injector τ) :
    (w.drain b q).2.2 = none ↔ q.isEmpty := by
  rw [Injector.isEmpty, List.isEmpty_iff, ← Injector.takeBatch_eq_none_iff (b := b), drain]
  cases q.takeBatch b with
  | none => exact iff_of_true rfl rfl
  | some found => exact iff_of_false nofun nofun

theorem drain_of_isEmpty (w : Worker τ) {q : Injector τ} (h : q.isEmpty) :
    w.drain b q = (w, q, none) := by
  rw [drain, Injector.takeBatch_eq_none_iff.mpr (List.isEmpty_iff.mp h)]

/-- A visit puts onto the stack what the first queue with any task yields. -/
theorem takeRemote_fst (w : Worker τ) (inbox shared : Injector τ) :
    (w.takeRemote b inbox shared).1 =
      w.stackUp ((if inbox.isEmpty then shared else inbox).surplus b) := by
  unfold takeRemote
  -- the inbox is looked at first, the shared queue only if the inbox is empty
  by_cases h : inbox.isEmpty
  · rw [if_pos h, drain_of_isEmpty w h]
    exact drain_fst w shared
  · rw [if_neg h, ← drain_fst]
    cases hdrain : w.drain b inbox with
    | mk left rest =>
        obtain ⟨queue, found⟩ := rest
        cases found with
        | some task => rfl
        | none =>
            have hfound := (drain_found w inbox).mp (by rw [hdrain])
            exact absurd hfound h

/-- Taking one's own task makes the stack no longer. -/
theorem length_takeOwn_le (w : Worker τ) : w.takeOwn.1.stack.length ≤ w.stack.length := by
  unfold takeOwn takeNext takeStack
  -- the next slot is beside the stack, a task off the stack shortens it
  split
  · next hnext =>
      split at hnext
      · split at hnext
        · obtain ⟨rfl, -⟩ := Prod.mk.inj (Option.some.inj hnext)
          exact Nat.le_refl _
        · exact nomatch hnext
      · exact nomatch hnext
  · split
    · next hstack => simp [hstack]
    · exact Nat.le_refl _
    · exact Nat.le_refl _

/-- Who finds nothing in the queues gets no batch from there. -/
theorem surplus_of_takeRemote_none (h : (w.takeRemote b inbox shared).2.2.2 = none) :
    (if inbox.isEmpty then shared else inbox).surplus b = [] := by
  have hempty : ∀ q : Injector τ, q.isEmpty → q.surplus b = [] := by
    intro q hq
    rw [Injector.surplus, Injector.takeBatch_eq_none_iff.mpr (List.isEmpty_iff.mp hq)]
    rfl
  unfold takeRemote at h
  split at h
  · exact nomatch h
  · next left queue hdrain =>
      have hinbox : inbox.isEmpty := (drain_found w inbox).mp (by rw [hdrain])
      rw [if_pos hinbox]
      exact hempty shared ((drain_found left shared).mp h)

/-- A take puts a batch onto the stack, or there is none and the stack grows no higher. -/
theorem stack_take (w : Worker τ) (inbox shared : Injector τ) :
    (w.take b inbox shared).1.stack = w.batch b inbox shared ++ w.stack ∨
      w.batch b inbox shared = [] ∧ (w.take b inbox shared).1.stack.length ≤ w.stack.length := by
  let ticked : Worker τ := { w with tick := w.tick + 1 }
  have hstack : ticked.stack = w.stack := rfl
  have hremote := ticked.takeRemote_fst (b := b) inbox shared
  unfold take batch visits
  by_cases hturn : (w.tick + 1) % visitInterval = 0
  · rw [if_pos hturn, if_pos (by simp [hturn])]
    split
    · -- something lay in the queues
      next left inbox' shared' task hfound =>
        rw [hfound] at hremote
        exact Or.inl (by rw [hremote, stackUp, hstack])
    · next left inbox' shared' hfound =>
        have hnone := surplus_of_takeRemote_none (w := ticked) (by rw [hfound])
        have hleft : left = ticked.stackUp [] := by
          rw [hfound, hnone] at hremote
          exact hremote
        refine Or.inr ⟨hnone, ?_⟩
        rw [hleft]
        exact (ticked.stackUp []).length_takeOwn_le
  · rw [if_neg hturn]
    have hle := ticked.length_takeOwn_le
    split
    · next left task hown =>
        -- who has something to run does not look into the queues
        have hbusy : ¬ (w.stack = [] ∧ w.next = none) := by
          rintro ⟨hnil, hnone⟩
          have hnothing : ticked.takeOwn.2 = none := by
            simp [ticked, takeOwn, takeNext, takeStack, hnil, hnone]
          rw [hown] at hnothing
          exact nomatch hnothing
        rw [hown] at hle
        refine Or.inr ⟨if_neg ?_, hle⟩
        simpa [hturn] using hbusy
    · next left hown =>
        obtain ⟨hnil, hnone⟩ := takeOwn_eq_none hown
        have hleft : left.stack = [] := by
          rw [hown, hstack, hnil] at hle
          exact List.length_eq_zero_iff.mp (Nat.le_zero.mp hle)
        refine Or.inl ?_
        rw [takeRemote_fst, stackUp, hleft, hnil, hnone]
        simp

/-- What one visit brings is no more than the largest batch. -/
theorem length_batch_le (w : Worker τ) (inbox shared : Injector τ) :
    (w.batch b inbox shared).length ≤ b.largest := by
  unfold batch
  split
  · exact Injector.length_surplus_le _
  · exact Nat.zero_le _

/-- Robbing a worker lowers its stack, and yields no more than a visit to a queue. -/
theorem length_rob_le {w' : Worker τ} {task : τ} {more : List τ}
    (h : w.rob b = some (w', task, more)) :
    w'.stack.length ≤ w.stack.length ∧ more.length ≤ b.largest := by
  obtain ⟨hloot, rfl⟩ := rob_eq_some h
  have hlength := hloot.length_eq
  rw [List.length_cons, List.length_drop, spared] at hlength
  have hle := b.spoils_le w.stack.length
  constructor
  · rw [List.length_take]
    exact Nat.min_le_right _ _
  · omega

end Worker

namespace Pool

variable {p p' p'' : Pool τ} {index : Nat}

/-! ## Who keeps the capacity -/

/-- No stack is higher than the settings say. -/
def IsWithinCapacity (p : Pool τ) : Prop :=
  ∀ post ∈ p.posts, post.worker.stack.length ≤ p.settings.localCapacity

/-- Whatever was done, the settings and the batches are the same and stacks that were low enough
still are. -/
structure KeepsRoom (p p' : Pool τ) : Prop where
  settings : p'.settings = p.settings
  batching : p'.batching = p.batching
  within : p.IsWithinCapacity → p'.IsWithinCapacity

theorem KeepsRoom.refl (p : Pool τ) : KeepsRoom p p := ⟨rfl, rfl, id⟩

theorem KeepsRoom.trans (h : KeepsRoom p p') (h' : KeepsRoom p' p'') : KeepsRoom p p'' :=
  ⟨h'.settings.trans h.settings, h'.batching.trans h.batching,
    fun hwithin => h'.within (h.within hwithin)⟩

/-- A pool after something was done in it that leaves all stacks as they are. -/
structure SameStacks (p p' : Pool τ) : Prop where
  settings : p'.settings = p.settings
  batching : p'.batching = p.batching
  alike : p'.posts.map (·.worker.stack) = p.posts.map (·.worker.stack)

theorem SameStacks.refl (p : Pool τ) : SameStacks p p := ⟨rfl, rfl, rfl⟩

theorem SameStacks.trans (h : SameStacks p p') (h' : SameStacks p' p'') : SameStacks p p'' :=
  ⟨h'.settings.trans h.settings, h'.batching.trans h.batching, h'.alike.trans h.alike⟩

/-- Pools with the same stacks are within capacity together. -/
theorem SameStacks.isWithinCapacity_iff (h : SameStacks p p') :
    p'.IsWithinCapacity ↔ p.IsWithinCapacity := by
  have hstacks : ∀ q : Pool τ, q.IsWithinCapacity ↔
      ∀ stack ∈ q.posts.map (·.worker.stack), stack.length ≤ q.settings.localCapacity := by
    intro q
    rw [List.forall_mem_map]
    rfl
  rw [hstacks, hstacks, h.alike, h.settings]

theorem SameStacks.keepsRoom (h : SameStacks p p') : KeepsRoom p p' :=
  ⟨h.settings, h.batching, h.isWithinCapacity_iff.mpr⟩

theorem SameStacks.stack_eq (h : SameStacks p p') (index : Nat) :
    (p'.posts[index]?).map (·.worker.stack) = (p.posts[index]?).map (·.worker.stack) := by
  rw [← List.getElem?_map, ← List.getElem?_map, h.alike]

/-- A change to a post that leaves the stack leaves all stacks. -/
theorem sameStacks_alter {f : Post τ → Post τ} (hf : ∀ post, (f post).worker.stack =
    post.worker.stack) : SameStacks p (p.alter index f) := by
  refine ⟨rfl, rfl, ?_⟩
  refine List.ext_getElem (by simp [alter]) ?_
  intro i hi hi'
  simp only [alter, List.getElem_map, List.getElem_modify]
  split
  · exact hf _
  · rfl

theorem sameStacks_publish : SameStacks p (p.publish index) := sameStacks_alter fun _ => rfl

theorem sameStacks_setPhase (phase : WorkerPhase) : SameStacks p (p.setPhase index phase) :=
  sameStacks_alter fun _ => rfl

theorem sameStacks_pushInbox (task : τ) : SameStacks p (p.pushInbox index task) :=
  sameStacks_alter fun _ => rfl

/-- Waking a worker leaves the stacks. -/
theorem sameStacks_notifyIfUnsearched : SameStacks p p.notifyIfUnsearched := by
  unfold notifyIfUnsearched
  split
  · exact ⟨rfl, rfl, rfl⟩
  · exact .refl p

/-- Beginning a search leaves the stacks. -/
theorem sameStacks_beginSearch (h : p.beginSearch = some p') : SameStacks p p' := by
  unfold beginSearch at h
  split at h
  · obtain rfl := Option.some.inj h
    exact ⟨rfl, rfl, rfl⟩
  · exact nomatch h

/-- Parking leaves the stacks. -/
theorem sameStacks_park : SameStacks p (p.park index) := by
  have hidle : SameStacks p (p.setPhase index .idle) := sameStacks_setPhase .idle
  unfold park
  dsimp only
  split
  · exact hidle
  · exact hidle.trans ⟨rfl, rfl, rfl⟩

/-- What goes to the shared queue goes onto no stack, whoever is woken for it. -/
theorem sameStacks_pushShared (task : τ) (parked : List Nat) :
    SameStacks p { p.pushShared task with parked } := ⟨rfl, rfl, rfl⟩

/-- A change to one post that keeps its stack low enough. -/
theorem keepsRoom_alter {f : Post τ → Post τ}
    (hf : ∀ post, p.posts[index]? = some post →
      post.worker.stack.length ≤ p.settings.localCapacity →
        (f post).worker.stack.length ≤ p.settings.localCapacity) :
    KeepsRoom p (p.alter index f) := by
  refine ⟨rfl, rfl, ?_⟩
  intro h post hpost
  obtain ⟨i, hi, rfl⟩ := List.getElem_of_mem hpost
  have hlt : i < p.posts.length := by simpa [alter] using hi
  simp only [alter, List.getElem_modify]
  split
  · next hindex =>
      subst hindex
      exact hf _ (List.getElem?_eq_getElem hlt) (h _ (List.getElem_mem hlt))
  · exact h _ (List.getElem_mem hlt)

/-- A single task goes onto a stack only where there is room. -/
theorem keepsRoom_pushLocal (task : τ) : KeepsRoom p (p.pushLocal index task) := by
  unfold pushLocal
  -- a single task goes onto the stack only if there is room, else to the shared queue
  split
  · exact (sameStacks_pushShared task _).keepsRoom
  · next post hpost =>
      refine KeepsRoom.trans ?_ (sameStacks_publish.trans sameStacks_notifyIfUnsearched).keepsRoom
      split
      · next worker hpush =>
          refine keepsRoom_alter fun other hother _ => ?_
          obtain rfl : post = other := Option.some.inj (hpost.symm.trans hother)
          unfold Worker.push? at hpush
          split at hpush
          · next hroom =>
              obtain rfl := Option.some.inj hpush
              exact hroom
          · exact nomatch hpush
      · exact (sameStacks_pushShared task _).keepsRoom

/-- A task for the next slot keeps room: what it displaces is pushed like any other. -/
theorem keepsRoom_pushNext (task : τ) : KeepsRoom p (p.pushNext index task) := by
  unfold pushNext
  split
  · exact (sameStacks_pushShared task _).keepsRoom
  · next post hpost =>
      -- the slot is beside the stack
      have hplaced : KeepsRoom p (p.alter index fun post' =>
          { post' with worker := (post.worker.placeNext task).1 }) := by
        refine keepsRoom_alter fun other hother h => ?_
        obtain rfl : post = other := Option.some.inj (hpost.symm.trans hother)
        exact h
      dsimp only
      split
      · exact hplaced.trans (keepsRoom_pushLocal _)
      · exact hplaced.trans sameStacks_publish.keepsRoom

/-- Scheduling keeps room. -/
theorem keepsRoom_schedule (task : τ) : KeepsRoom p (p.schedule task) := by
  unfold schedule
  split
  · exact keepsRoom_pushNext task
  · exact (sameStacks_pushShared task _).keepsRoom

/-- Submitting keeps room. -/
theorem keepsRoom_submit (task : τ) (destination : Destination) :
    KeepsRoom p (p.submit task destination) := by
  unfold submit
  split
  · next index =>
    split
    · split
      · exact keepsRoom_pushLocal task
      · have hpushed : SameStacks p ((p.pushInbox index task).unpark index) :=
          (sameStacks_pushInbox task).trans ⟨rfl, rfl, rfl⟩
        exact hpushed.keepsRoom
    · exact (sameStacks_pushShared task _).keepsRoom
  · exact (sameStacks_pushShared task _).keepsRoom

/-- What robbing others comes to for a thief: no stack grows, its own is as it was, and there is
no more to put onto it than the largest batch. -/
structure Robs (thief : Nat) (p p' : Pool τ) (more : List τ) : Prop where
  keepsRoom : KeepsRoom p p'
  thief : p'.posts[thief]? = p.posts[thief]?
  length : more.length ≤ p.batching.largest

/-- Robbing one victim shortens the victim's stack or leaves it, and brings at most a largest batch.
-/
theorem robs_robOne {thief victim : Nat} {task : τ} {more : List τ}
    (h : p.robOne thief victim = some (p', task, more)) : Robs thief p p' more := by
  unfold robOne at h
  split at h
  · exact nomatch h
  · next post hpost =>
      split at h
      · exact nomatch h
      · next hne =>
          split at h
          · -- the victim had tasks on its stack
            next worker oldest loot hrob =>
              obtain ⟨rfl, hrest⟩ := Prod.mk.inj (Option.some.inj h)
              obtain ⟨-, rfl⟩ := Prod.mk.inj hrest
              obtain ⟨hlower, hlength⟩ := Worker.length_rob_le hrob
              refine ⟨keepsRoom_alter fun other hother hle => ?_, ?_, hlength⟩
              · obtain rfl : post = other := Option.some.inj (hpost.symm.trans hother)
                exact Nat.le_trans hlower hle
              · exact List.getElem?_modify_ne _ _ hne
          · -- or in its inbox
            obtain ⟨⟨left, oldest, batch⟩, hbatch, hfound⟩ := Option.map_eq_some_iff.mp h
            obtain ⟨rfl, hrest⟩ := Prod.mk.inj hfound
            obtain ⟨-, rfl⟩ := Prod.mk.inj hrest
            refine ⟨SameStacks.keepsRoom (sameStacks_alter fun post => rfl), ?_,
              Injector.length_le_of_takeBatch hbatch⟩
            exact List.getElem?_modify_ne _ _ hne

/-- Robbing whom one finds shortens one stack at most, and brings at most a largest batch. -/
theorem robs_robAny {thief : Nat} {victims : List Nat} {task : τ} {more : List τ}
    (h : p.robAny thief victims = some (p', task, more)) : Robs thief p p' more := by
  -- on the victims: the first who has something is robbed
  induction victims with
  | nil =>
      -- when nobody has anything, the shared queue is looked at
      obtain ⟨⟨left, oldest, batch⟩, hbatch, hfound⟩ := Option.map_eq_some_iff.mp h
      obtain ⟨rfl, hrest⟩ := Prod.mk.inj hfound
      obtain ⟨-, rfl⟩ := Prod.mk.inj hrest
      exact ⟨⟨rfl, rfl, id⟩, rfl, Injector.length_le_of_takeBatch hbatch⟩
  | cons victim rest ih =>
      unfold robAny at h
      split at h
      · next hrob =>
          obtain rfl := Option.some.inj h
          exact robs_robOne hrob
      · exact ih h

/-! ## Batches -/

/-- What a thief would take away beyond the task that it runs. -/
def loot (p : Pool τ) (thief : Nat) (victims : List Nat) : List τ :=
  match p.beginSearch with
  | none => []
  | some searching =>
    ((searching.setPhase thief .stealing).robAny thief victims).elim [] fun found => found.2.2

/-- The worker on whose stack a request puts a batch, and the batch, if it may be one. -/
def batchOf (p : Pool τ) : Request τ → Option (Worker τ × List τ)
  | .take index => (p.posts[index]?).map fun post =>
      (post.worker, post.worker.batch p.batching post.inbox p.shared)
  | .steal thief victims => (p.posts[thief]?).map fun post => (post.worker, p.loot thief victims)
  | _ => none

/-- The batch of a request, if there is one, has room on the stack where it goes. -/
def FindsRoom (p : Pool τ) (request : Request τ) : Prop :=
  ∀ worker batch, p.batchOf request = some (worker, batch) → batch ≠ [] →
    worker.stack.length + batch.length ≤ p.settings.localCapacity

/-- Where one post changes in a pool within its capacity, that post decides. -/
theorem isWithinCapacity_alter_iff {f : Post τ → Post τ} {post : Post τ} (h : p.IsWithinCapacity)
    (hpost : p.posts[index]? = some post) : (p.alter index f).IsWithinCapacity ↔
      (f post).worker.stack.length ≤ p.settings.localCapacity := by
  constructor
  · intro hafter
    refine hafter (f post) (List.mem_of_getElem? (i := index) ?_)
    rw [alter, List.getElem?_modify_eq, hpost]
    rfl
  · intro hle
    refine (keepsRoom_alter fun other hother _ => ?_).within h
    obtain rfl : post = other := Option.some.inj (hpost.symm.trans hother)
    exact hle

/-- A batch keeps the capacity if it finds room, and only then. -/
theorem length_batch_append_iff {batch stack : List τ} {capacity : Nat}
    (h : stack.length ≤ capacity) : (batch ++ stack).length ≤ capacity ↔
      (batch ≠ [] → stack.length + batch.length ≤ capacity) := by
  rw [List.length_append, Nat.add_comm]
  constructor
  · exact fun hle _ => hle
  · intro hroom
    by_cases hnil : batch = []
    · rw [hnil]
      exact h
    · exact hroom hnil

/-- A batch that is known finds room if it fits on top of the stack. -/
theorem findsRoom_iff {request : Request τ} {worker : Worker τ} {batch : List τ}
    (h : p.batchOf request = some (worker, batch)) : p.FindsRoom request ↔
      (batch ≠ [] → worker.stack.length + batch.length ≤ p.settings.localCapacity) := by
  constructor
  · exact fun hroom => hroom worker batch h
  · intro hroom worker' batch' h'
    obtain ⟨rfl, rfl, rfl⟩ := Prod.mk.inj (Option.some.inj (h.symm.trans h'))
    exact hroom

/-- A take keeps all stacks low exactly if its batch finds room. -/
theorem isWithinCapacity_take_iff (h : p.IsWithinCapacity) (index : Nat) :
    (p.take index).1.IsWithinCapacity ↔ p.FindsRoom (.take index) := by
  cases hpost : p.posts[index]? with
  | none =>
      have hsame : (p.take index).1 = p := by simp only [take, hpost]
      have hroom : p.FindsRoom (.take index) := by
        intro worker batch hbatch
        simp only [batchOf, hpost, Option.map_none, reduceCtorEq] at hbatch
      rw [hsame]
      exact iff_of_true h hroom
  | some post =>
      have hlow := h post (List.mem_of_getElem? hpost)
      have hbatch : p.batchOf (.take index) =
          some (post.worker, post.worker.batch p.batching post.inbox p.shared) := by
        simp only [batchOf, hpost, Option.map_some]
      let taken := post.worker.take p.batching post.inbox p.shared
      have hafter : (p.take index).1 = ({ p with shared := taken.2.2.1 }.alter index fun post =>
          { post with worker := taken.1, inbox := taken.2.1 }).publish index := by
        simp only [take, hpost, taken]
      rw [hafter, sameStacks_publish.isWithinCapacity_iff,
        isWithinCapacity_alter_iff (p := { p with shared := taken.2.2.1 }) h hpost,
        findsRoom_iff hbatch, ← length_batch_append_iff hlow]
      -- the batch comes on top of the stack, or there is none and the stack is no higher
      rcases post.worker.stack_take post.inbox p.shared with hstack | ⟨hnil, hle⟩
      · exact (congrArg (fun stack => stack.length ≤ p.settings.localCapacity) hstack).to_iff
      · rw [hnil]
        exact iff_of_true (Nat.le_trans hle hlow) hlow

/-- A pool in which loot was put onto the stack of a thief. -/
def loaded (p : Pool τ) (thief : Nat) (loot : List τ) : Pool τ :=
  p.alter thief fun post => { post with worker := post.worker.stackUp loot }

/-- What a steal can be. -/
inductive Steals (p : Pool τ) (thief : Nat) (victims : List Nat) : Prop where
  /-- The thief may not search now, or it finds nothing. -/
  | nothing (hloot : p.loot thief victims = []) (hsame : SameStacks p (p.steal thief victims).1)
  /-- It finds a task to run, and loads what comes along. -/
  | robs (robbed : Pool τ) (hkeeps : KeepsRoom p robbed)
      (hthief : (robbed.posts[thief]?).map (·.worker.stack) =
        (p.posts[thief]?).map (·.worker.stack))
      (hlength : (p.loot thief victims).length ≤ p.batching.largest)
      (hsame : SameStacks (robbed.loaded thief (p.loot thief victims)) (p.steal thief victims).1)

/-- A steal either finds nothing or loads the thief with its loot. -/
theorem steals (p : Pool τ) (thief : Nat) (victims : List Nat) : Steals p thief victims := by
  cases hsearch : p.beginSearch with
  | none =>
      have hsame : (p.steal thief victims).1 = p := by simp only [steal, hsearch]
      refine .nothing (by simp only [loot, hsearch]) ?_
      rw [hsame]
      exact .refl p
  | some searching =>
      have hlooking : SameStacks p (searching.setPhase thief .stealing) :=
        (sameStacks_beginSearch hsearch).trans (sameStacks_setPhase _)
      -- the search is counted before and after, so only the loot itself moves tasks
      cases hrob : (searching.setPhase thief .stealing).robAny thief victims with
      | none =>
          refine .nothing (by simp only [loot, hsearch, hrob, Option.elim_none]) ?_
          simp only [steal, hsearch, hrob]
          exact hlooking.trans (sameStacks_publish.trans ⟨rfl, rfl, rfl⟩)
      | some found =>
          obtain ⟨robbed, task, more⟩ := found
          have hrobs := robs_robAny hrob
          have hloot : p.loot thief victims = more := by
            simp only [loot, hsearch, hrob, Option.elim_some]
          have hended : SameStacks (robbed.loaded thief more)
              ((robbed.loaded thief more).publish thief).endSearch :=
            sameStacks_publish.trans ⟨rfl, rfl, rfl⟩
          refine .robs robbed (hlooking.keepsRoom.trans hrobs.keepsRoom) ?_ ?_ ?_
          · rw [hrobs.thief, hlooking.stack_eq]
          · rw [hloot, ← hlooking.batching]
            exact hrobs.length
          · rw [hloot]
            simp only [steal, hsearch, hrob]
            split
            · exact hended
            · exact hended.trans sameStacks_notifyIfUnsearched

/-- A steal keeps all stacks low exactly if its loot finds room. -/
theorem isWithinCapacity_steal_iff (h : p.IsWithinCapacity) (thief : Nat) (victims : List Nat) :
    (p.steal thief victims).1.IsWithinCapacity ↔ p.FindsRoom (.steal thief victims) := by
  cases p.steals thief victims with
  | nothing hloot hsame =>
      refine iff_of_true (hsame.isWithinCapacity_iff.mpr h) ?_
      intro worker batch hbatch hne
      obtain ⟨post, -, hpost⟩ := Option.map_eq_some_iff.mp hbatch
      obtain ⟨-, rfl⟩ := Prod.mk.inj hpost
      exact absurd hloot hne
  | robs robbed hkeeps hthief _ hsame =>
      have hlow := hkeeps.within h
      rw [hsame.isWithinCapacity_iff, loaded]
      -- a thief without a post stacks nothing up
      cases hpost : p.posts[thief]? with
      | none =>
          rw [hpost, Option.map_none, Option.map_eq_none_iff] at hthief
          refine iff_of_true ((keepsRoom_alter ?_).within hlow) ?_
          · intro other hother
            rw [hthief] at hother
            exact nomatch hother
          · intro worker batch hbatch
            simp only [batchOf, hpost, Option.map_none, reduceCtorEq] at hbatch
      | some post =>
          rw [hpost] at hthief
          obtain ⟨taker, htaker, hstack⟩ := Option.map_eq_some_iff.mp hthief
          have hbatch : p.batchOf (.steal thief victims) =
              some (post.worker, p.loot thief victims) := by
            simp only [batchOf, hpost, Option.map_some]
          rw [isWithinCapacity_alter_iff hlow htaker, findsRoom_iff hbatch, hkeeps.settings,
            Worker.stackUp, hstack]
          exact length_batch_append_iff (h post (List.mem_of_getElem? hpost))

/-! ## Wide stacks -/

/-- Whatever a request brings as a batch is no more than the largest batch. -/
theorem length_batchOf_le {request : Request τ} {worker : Worker τ} {batch : List τ}
    (h : p.batchOf request = some (worker, batch)) : batch.length ≤ p.batching.largest := by
  cases request with
  | take index =>
      obtain ⟨post, -, hpost⟩ := Option.map_eq_some_iff.mp h
      obtain ⟨-, rfl⟩ := Prod.mk.inj hpost
      exact post.worker.length_batch_le post.inbox p.shared
  | steal thief victims =>
      obtain ⟨post, -, hpost⟩ := Option.map_eq_some_iff.mp h
      obtain ⟨-, rfl⟩ := Prod.mk.inj hpost
      cases p.steals thief victims with
      | nothing hloot _ => simp [hloot]
      | robs _ _ _ hlength _ => exact hlength
  | _ => exact nomatch h

/-- A request puts a batch onto a stack on which something lies. A worker's take does so only when
it is time to visit the queues first. -/
def Crowds (p : Pool τ) (request : Request τ) : Prop :=
  ∃ worker batch, p.batchOf request = some (worker, batch) ∧ batch ≠ [] ∧ worker.stack ≠ [] ∧
    ∀ index, request = .take index → (worker.tick + 1) % Worker.visitInterval = 0

/-- Where an empty stack has room for the largest batch, only crowding can go wrong. -/
theorem crowds_of_wide {request : Request τ}
    (hwide : p.batching.largest ≤ p.settings.localCapacity) (h : ¬ p.FindsRoom request) :
    p.Crowds request := by
  unfold FindsRoom at h
  push Not at h
  obtain ⟨worker, batch, hbatch, hne, hfull⟩ := h
  have hle := length_batchOf_le hbatch
  have hstack : worker.stack ≠ [] := by
    intro hnil
    rw [hnil, List.length_nil] at hfull
    omega
  refine ⟨worker, batch, hbatch, hne, hstack, ?_⟩
  rintro index rfl
  obtain ⟨post, -, hpost⟩ := Option.map_eq_some_iff.mp hbatch
  obtain ⟨rfl, rfl, rfl⟩ := Prod.mk.inj hpost
  -- a batch comes with a visit, and a worker with something on its stack visits in its turn only
  have hvisits : post.worker.visits := by
    by_contra hstays
    exact hne (if_neg hstays)
  simpa [Worker.visits, hstack] using hvisits

/-! ## Requests and runs -/

/-- A request keeps the capacity of all stacks if its batch finds room, and only then. -/
theorem isWithinCapacity_serve_iff (h : p.IsWithinCapacity) (request : Request τ) :
    (p.serve request).1.IsWithinCapacity ↔ p.FindsRoom request := by
  -- only a take and a steal bring a batch
  have hsingle : p.batchOf request = none → KeepsRoom p (p.serve request).1 →
      ((p.serve request).1.IsWithinCapacity ↔ p.FindsRoom request) := by
    intro hnone hkeeps
    refine iff_of_true (hkeeps.within h) ?_
    intro worker batch hbatch
    rw [hnone] at hbatch
    exact nomatch hbatch
  cases request with
  | take index => exact isWithinCapacity_take_iff h index
  | steal thief victims => exact isWithinCapacity_steal_iff h thief victims
  | schedule task => exact hsingle rfl (keepsRoom_schedule task)
  | submit task destination => exact hsingle rfl (keepsRoom_submit task destination)
  | requeue index task =>
      exact hsingle rfl ((sameStacks_pushInbox task).trans sameStacks_notifyIfUnsearched).keepsRoom
  | park index => exact hsingle rfl sameStacks_park.keepsRoom
  | unpark index => exact hsingle rfl (SameStacks.keepsRoom ⟨rfl, rfl, rfl⟩)
  | setPhase index phase => exact hsingle rfl (sameStacks_setPhase phase).keepsRoom
  | recordTurn index alpha elapsed price =>
      exact hsingle rfl (SameStacks.keepsRoom (sameStacks_alter fun _ => rfl))

/-- A request on behalf of a worker or of nobody. -/
structure Order (τ : Type) where
  caller : Option Nat
  request : Request τ

/-- The pool while somebody acts on behalf of a worker. -/
def onBehalfOf (p : Pool τ) (caller : Option Nat) : Pool τ := { p with current := caller }

/-- Does what is asked for on somebody's behalf. -/
def obey (p : Pool τ) (order : Order τ) : Pool τ :=
  ((p.onBehalfOf order.caller).serve order.request).1

/-- The batch of an order, if there is one, has room. -/
def FindsRoomFor (p : Pool τ) (order : Order τ) : Prop :=
  (p.onBehalfOf order.caller).FindsRoom order.request

/-- Does one order after another. -/
def run (p : Pool τ) (orders : List (Order τ)) : Pool τ := orders.foldl obey p

/-- An order keeps all stacks low exactly if its request finds room. -/
theorem isWithinCapacity_obey_iff (h : p.IsWithinCapacity) (order : Order τ) :
    (p.obey order).IsWithinCapacity ↔ p.FindsRoomFor order :=
  isWithinCapacity_serve_iff (p := p.onBehalfOf order.caller) h order.request

/-- A new pool has empty stacks. -/
theorem isWithinCapacity_ofSettings (settings : SchedulerSettings) (workers : Nat)
    (batching : Batching τ) : (ofSettings settings workers batching).IsWithinCapacity := by
  intro post hpost
  rw [List.eq_of_mem_replicate hpost]
  exact Nat.zero_le _

/-- One more order of a run is obeyed. -/
theorem run_take_succ {orders : List (Order τ)} {n : Nat} {order : Order τ}
    (h : orders[n]? = some order) :
    p.run (orders.take (n + 1)) = (p.run (orders.take n)).obey order := by
  rw [List.take_add_one, h, run, run, List.foldl_append]
  rfl

/-- What no request changes. -/
structure SameTerms (p p' : Pool τ) : Prop where
  settings : p'.settings = p.settings
  batching : p'.batching = p.batching

theorem KeepsRoom.sameTerms (h : KeepsRoom p p') : SameTerms p p' := ⟨h.settings, h.batching⟩

theorem SameStacks.sameTerms (h : SameStacks p p') : SameTerms p p' := ⟨h.settings, h.batching⟩

theorem SameTerms.trans (h : SameTerms p p') (h' : SameTerms p' p'') : SameTerms p p'' :=
  ⟨h'.settings.trans h.settings, h'.batching.trans h.batching⟩

/-- A steal keeps settings and batching. -/
theorem sameTerms_steal (p : Pool τ) (thief : Nat) (victims : List Nat) :
    SameTerms p (p.steal thief victims).1 := by
  cases p.steals thief victims with
  | nothing _ hsame => exact hsame.sameTerms
  | robs _ hkeeps _ _ hsame =>
      have hloaded : SameTerms _ _ := hsame.sameTerms
      exact hkeeps.sameTerms.trans ⟨hloaded.settings, hloaded.batching⟩

/-- Every request keeps settings and batching. -/
theorem sameTerms_serve (p : Pool τ) (request : Request τ) :
    SameTerms p (p.serve request).1 := by
  cases request with
  | schedule task => exact (keepsRoom_schedule task).sameTerms
  | submit task destination => exact (keepsRoom_submit task destination).sameTerms
  | take index =>
      simp only [serve, take]
      split
      · exact ⟨rfl, rfl⟩
      · exact ⟨rfl, rfl⟩
  | steal thief victims => exact p.sameTerms_steal thief victims
  | park index => exact sameStacks_park.sameTerms
  | requeue index task =>
      exact ((sameStacks_pushInbox task).trans sameStacks_notifyIfUnsearched).sameTerms
  | unpark index => exact ⟨rfl, rfl⟩
  | setPhase index phase => exact ⟨rfl, rfl⟩
  | recordTurn index alpha elapsed price => exact ⟨rfl, rfl⟩

/-- A run of orders keeps settings and batching. -/
theorem sameTerms_run (p : Pool τ) (orders : List (Order τ)) : SameTerms p (p.run orders) := by
  induction orders generalizing p with
  | nil => exact ⟨rfl, rfl⟩
  | cons order rest ih =>
      have hobeyed : SameTerms (p.onBehalfOf order.caller) (p.obey order) := sameTerms_serve _ _
      exact SameTerms.trans ⟨hobeyed.settings, hobeyed.batching⟩ (ih (p.obey order))

/-- In a run from the opening of a pool, no stack is ever higher than its capacity exactly when
every batch of the run finds room on the stack where it goes. Where the largest batch fits on an
empty stack, it is enough that no batch of the run crowds a stack on which something lies. -/
theorem run_isWithinCapacity_iff (settings : SchedulerSettings) (workers : Nat)
    (batching : Batching τ) (orders : List (Order τ)) :
    ((∀ n, ((ofSettings settings workers batching).run (orders.take n)).IsWithinCapacity) ↔
      ∀ n order, orders[n]? = some order →
        ((ofSettings settings workers batching).run (orders.take n)).FindsRoomFor order) ∧
    (batching.largest ≤ settings.localCapacity →
      (∀ n order, orders[n]? = some order →
        ¬ (((ofSettings settings workers batching).run (orders.take n)).onBehalfOf
          order.caller).Crowds order.request) →
      ∀ n, ((ofSettings settings workers batching).run (orders.take n)).IsWithinCapacity) := by
  have hiff :
      (∀ n, ((ofSettings settings workers batching).run (orders.take n)).IsWithinCapacity) ↔
      ∀ n order, orders[n]? = some order →
        ((ofSettings settings workers batching).run (orders.take n)).FindsRoomFor order := by
    constructor
    · intro hall n order horder
      have hafter := hall (n + 1)
      rw [run_take_succ horder] at hafter
      exact (isWithinCapacity_obey_iff (hall n) order).mp hafter
    · -- the first batch without room would be served while all stacks are low enough
      intro hroom n
      induction n with
      | zero => exact isWithinCapacity_ofSettings settings workers batching
      | succ n ih =>
          cases horder : orders[n]? with
          | none =>
              rw [List.take_add_one, horder, Option.toList_none, List.append_nil]
              exact ih
          | some order =>
              rw [run_take_succ horder]
              exact (isWithinCapacity_obey_iff ih order).mpr (hroom n order horder)
  -- the second half: a batch that fits an empty stack lacks room only by being stacked on tasks
  refine ⟨hiff, ?_⟩
  intro hwide hcalm
  refine hiff.mpr fun n order horder => ?_
  by_contra hfull
  refine hcalm n order horder (crowds_of_wide ?_ hfull)
  have hterms := sameTerms_run (ofSettings settings workers batching) (orders.take n)
  rw [onBehalfOf, hterms.settings, hterms.batching]
  exact hwide

/-- Six tasks come to the shared queue of a pool of one worker, whose stack may hold one. The
worker runs the first and takes two along. -/
theorem run_overfills_stack :
    let settings : SchedulerSettings := { localCapacity := 1 }
    let spawn (task : Nat) : Order Nat := ⟨none, .submit task .shared⟩
    let p := (ofSettings settings 1).run ([0, 1, 2, 3, 4, 5].map spawn ++ [⟨some 0, .take 0⟩])
    p.posts.map (·.worker.stack) = [[1, 2]] ∧ p.shared.tasks = [3, 4, 5] ∧
      1 ≤ settings.localCapacity ∧ ¬ p.IsWithinCapacity := by
  intro settings spawn p
  have hstacks : p.posts.map (·.worker.stack) = [[1, 2]] := by decide
  refine ⟨hstacks, by decide, Nat.le_refl 1, ?_⟩
  intro h
  obtain ⟨post, hpost, hstack⟩ := List.mem_map.mp (hstacks ▸ List.mem_cons_self)
  have hle := h post hpost
  rw [hstack] at hle
  exact absurd hle (by decide)

end Pool
end Troupe
