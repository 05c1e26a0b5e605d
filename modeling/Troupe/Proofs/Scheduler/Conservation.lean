import Mathlib.Algebra.BigOperators.Fin
import Troupe.Proofs.Scheduler.Bounds

/-!
# Tasks in a pool

Queueing adds the one task that is queued, finding work takes away the one task that is
found, and everything else moves tasks about. Said for every class of tasks: a `P` below
picks a class out, and the pool is asked how many of its tasks are in it.

* `Worker.countP_take`, `Worker.countP_rob` — what leaves a worker;
* `Pool.countP_alter` — a change of one post changes the pool by as much;
* `Pool.countP_schedule`, `Pool.countP_submit`, `Pool.countP_requeue` — one task more;
* `Pool.countP_take`, `Pool.countP_steal` — one task less, if any was found.
-/

namespace Troupe

variable {τ : Type} {P : τ → Bool}

/-! ## Workers and injectors -/

/-- A batch and what it leaves are what was there. -/
theorem Injector.countP_takeBatch {b : Batching τ} {q left : Injector τ} {task : τ}
    {more : List τ} (h : q.takeBatch b = some (left, task, more)) :
    q.tasks.countP P = [task].countP P + more.countP P + left.tasks.countP P := by
  rw [← (Injector.takeBatch_perm h).countP_eq, ← List.countP_append, ← List.countP_append]
  simp only [List.cons_append, List.nil_append]

namespace Worker

/-- A worker's own tasks, wherever they are. -/
def tasks (w : Worker τ) : List τ := w.stack ++ w.next.toList

theorem countP_tasks (w : Worker τ) :
    w.tasks.countP P = w.stack.countP P + w.next.toList.countP P :=
  List.countP_append

theorem countP_stackUp (w : Worker τ) (tasks : List τ) :
    (w.stackUp tasks).tasks.countP P = tasks.countP P + w.tasks.countP P := by
  simp only [countP_tasks, stackUp, List.countP_append, Nat.add_assoc]

/-- Taking from the next slot moves one task. -/
theorem countP_takeNext {w w' : Worker τ} {task : τ} (h : w.takeNext = some (w', task)) :
    [task].countP P + w'.tasks.countP P = w.tasks.countP P := by
  unfold takeNext at h
  split at h
  · split at h
    · next found hnext =>
        obtain ⟨rfl, rfl⟩ := Prod.mk.inj (Option.some.inj h)
        simp only [countP_tasks, hnext, Option.toList_none, Option.toList_some, List.countP_nil]
        omega
    · exact nomatch h
  · exact nomatch h

/-- Taking from the stack moves one task, if there is one. -/
theorem countP_takeStack (w : Worker τ) :
    w.takeStack.2.toList.countP P + w.takeStack.1.tasks.countP P = w.tasks.countP P := by
  unfold takeStack
  split
  · next task rest hstack =>
      rw [countP_tasks, countP_tasks, hstack, ← List.singleton_append, List.countP_append]
      exact (Nat.add_assoc _ _ _).symm
  · next task hstack hnext =>
      simp [countP_tasks, hstack, hnext]
  · next hstack hnext =>
      simp [countP_tasks, hstack, hnext]

/-- Taking one's own task moves it from the worker to the hand. -/
theorem countP_takeOwn {w w' : Worker τ} {found : Option τ} (h : w.takeOwn = (w', found)) :
    found.toList.countP P + w'.tasks.countP P = w.tasks.countP P := by
  unfold takeOwn at h
  split at h
  · next own task hnext =>
      obtain ⟨rfl, rfl⟩ := Prod.mk.inj h
      exact countP_takeNext hnext
  · have hstack := w.countP_takeStack (P := P)
    rw [h] at hstack
    exact hstack

/-- Draining a queue moves tasks from the queue to the worker, but for the one that is handed out.
-/
theorem countP_drain {b : Batching τ} {w w' : Worker τ} {q left : Injector τ} {found : Option τ}
    (h : w.drain b q = (w', left, found)) :
    found.toList.countP P + w'.tasks.countP P + left.tasks.countP P =
      w.tasks.countP P + q.tasks.countP P := by
  unfold drain at h
  split at h
  · obtain ⟨rfl, hrest⟩ := Prod.mk.inj h
    obtain ⟨rfl, rfl⟩ := Prod.mk.inj hrest
    simp
  · next rest oldest more hbatch =>
      obtain ⟨rfl, hrest⟩ := Prod.mk.inj h
      obtain ⟨rfl, rfl⟩ := Prod.mk.inj hrest
      rw [Injector.countP_takeBatch hbatch, countP_stackUp, Option.toList_some]
      omega

section

variable {b : Batching τ} {w w' : Worker τ} {inbox inbox' shared shared' : Injector τ}
variable {found : Option τ}

/-- A look into inbox and shared queue loses no task. -/
theorem countP_takeRemote (h : w.takeRemote b inbox shared = (w', inbox', shared', found)) :
    found.toList.countP P + w'.tasks.countP P + inbox'.tasks.countP P + shared'.tasks.countP P =
      w.tasks.countP P + inbox.tasks.countP P + shared.tasks.countP P := by
  unfold takeRemote at h
  split at h
  · next w₁ left task hinbox =>
      have hcount := countP_drain (P := P) hinbox
      simp only [Prod.mk.injEq] at h
      obtain ⟨rfl, rfl, rfl, rfl⟩ := h
      omega
  · next w₁ left hinbox =>
      have hcount := countP_drain (P := P) hinbox
      cases hshared : w₁.drain b shared with
      | mk w₂ rest =>
          have hcount' := countP_drain (P := P) hshared
          simp only [hshared, Prod.mk.injEq] at h
          obtain ⟨rfl, rfl, rfl, rfl⟩ := h
          simp only [Option.toList_none, List.countP_nil] at hcount
          omega

/-- The next task to run and what it leaves are what was there. -/
theorem countP_take (h : w.take b inbox shared = (w', inbox', shared', found)) :
    found.toList.countP P + w'.tasks.countP P + inbox'.tasks.countP P + shared'.tasks.countP P =
      w.tasks.countP P + inbox.tasks.countP P + shared.tasks.countP P := by
  -- counting the visit moves no task
  have hticked : ({ w with tick := w.tick + 1 } : Worker τ).tasks = w.tasks := rfl
  rw [← hticked]
  unfold take at h
  generalize ({ w with tick := w.tick + 1 } : Worker τ) = ticked at h ⊢
  dsimp only at h
  -- whether the queues are visited before the worker's own tasks or after them
  split at h
  · split at h
    · next hremote =>
        simp only [Prod.mk.injEq] at h
        obtain ⟨rfl, rfl, rfl, rfl⟩ := h
        exact countP_takeRemote hremote
    · next w₁ _ _ hremote =>
        have hcount := countP_takeRemote (P := P) hremote
        cases hown : w₁.takeOwn with
        | mk w₂ own =>
            have hcount' := countP_takeOwn (P := P) hown
            simp only [hown, Prod.mk.injEq] at h
            obtain ⟨rfl, rfl, rfl, rfl⟩ := h
            simp only [Option.toList_none, List.countP_nil] at hcount
            omega
  · split at h
    · next hown =>
        have hcount := countP_takeOwn (P := P) hown
        simp only [Prod.mk.injEq] at h
        obtain ⟨rfl, rfl, rfl, rfl⟩ := h
        omega
    · next hown =>
        have hcount := countP_takeOwn (P := P) hown
        have hremote := countP_takeRemote (P := P) h
        simp only [Option.toList_none, List.countP_nil] at hcount
        omega

end

/-- The loot and what it leaves are what was there. -/
theorem countP_rob {b : Batching τ} {w w' : Worker τ} {task : τ} {more : List τ}
    (h : w.rob b = some (w', task, more)) :
    w.tasks.countP P = [task].countP P + more.countP P + w'.tasks.countP P := by
  obtain ⟨hloot, rfl⟩ := rob_eq_some h
  have hcount : (w.stack.drop (w.spared b)).countP P = [task].countP P + more.countP P := by
    rw [← hloot.countP_eq, ← List.singleton_append, List.countP_append]
  have hstack := congrArg (List.countP P) (List.take_append_drop (w.spared b) w.stack)
  rw [List.countP_append] at hstack
  simp only [countP_tasks]
  omega

end Worker

/-! ## Posts -/

/-- The tasks of a worker and of its inbox. -/
def Post.tasks (post : Post τ) : List τ := post.inbox.tasks ++ post.worker.tasks

/-- What lies at a post lies in the inbox or with the worker. -/
theorem Post.countP_tasks (post : Post τ) :
    post.tasks.countP P = post.inbox.tasks.countP P + post.worker.tasks.countP P :=
  List.countP_append

namespace Pool

variable {p p' : Pool τ} {index : Nat} {post : Post τ} {f : Post τ → Post τ}

/-- What lies in a pool lies in the shared queue or at a post. -/
theorem countP_tasks (p : Pool τ) :
    p.tasks.countP P =
      p.shared.tasks.countP P + (p.posts.map fun post => post.tasks.countP P).sum := by
  have hposts : p.tasks = p.shared.tasks ++ p.posts.flatMap Post.tasks := by
    simp only [Pool.tasks, List.append_assoc]
    rfl
  rw [hposts, List.countP_append, List.countP_flatMap]
  rfl

/-- Changing one of several amounts changes their sum by as much. -/
theorem sum_map_modify {α : Type} (size : α → Nat) (f : α → α) {xs : List α} {i : Nat} {x : α}
    (h : xs[i]? = some x) :
    ((xs.modify i f).map size).sum + size x = (xs.map size).sum + size (f x) := by
  induction xs generalizing i with
  | nil => exact nomatch h
  | cons y rest ih =>
      cases i with
      | zero =>
          obtain rfl : y = x := Option.some.inj h
          simp only [List.modify_zero_cons, List.map_cons, List.sum_cons]
          omega
      | succ i =>
          have hrest := ih (i := i) h
          simp only [List.modify_succ_cons, List.map_cons, List.sum_cons]
          omega

/-- A change of one post changes the pool by as much. -/
theorem countP_alter (h : p.posts[index]? = some post) :
    (p.alter index f).tasks.countP P + post.tasks.countP P =
      p.tasks.countP P + (f post).tasks.countP P := by
  have hsum := sum_map_modify (fun post => post.tasks.countP P) f h
  rw [countP_tasks, countP_tasks]
  simp only [alter]
  omega

/-- A change that leaves the tasks of every post alone leaves those of the pool alone. -/
theorem countP_alter_of_same (hf : ∀ post, (f post).tasks = post.tasks) :
    (p.alter index f).tasks.countP P = p.tasks.countP P := by
  cases h : p.posts[index]? with
  | some post =>
      have := countP_alter (P := P) (f := f) h
      rw [hf post] at this
      omega
  | none =>
      have hsame : p.posts.modify index f = p.posts :=
        List.modify_eq_self (List.getElem?_eq_none_iff.mp h)
      rw [alter, hsame]

@[simp] theorem countP_publish : (p.publish index).tasks.countP P = p.tasks.countP P :=
  countP_alter_of_same fun _ => rfl

@[simp] theorem countP_setPhase (phase : WorkerPhase) :
    (p.setPhase index phase).tasks.countP P = p.tasks.countP P :=
  countP_alter_of_same fun _ => rfl

@[simp] theorem countP_recordTurn (alpha elapsed price : Float) :
    (p.recordTurn index alpha elapsed price).tasks.countP P = p.tasks.countP P :=
  countP_alter_of_same fun _ => rfl

@[simp] theorem countP_endSearch : p.endSearch.tasks.countP P = p.tasks.countP P := rfl

@[simp] theorem countP_notifyIfUnsearched :
    p.notifyIfUnsearched.tasks.countP P = p.tasks.countP P := by
  unfold notifyIfUnsearched
  split <;> rfl

/-! ## Queueing -/

/-- A task pushed to the shared queue is one more. -/
theorem countP_pushShared (task : τ) :
    (p.pushShared task).tasks.countP P = [task].countP P + p.tasks.countP P := by
  rw [countP_tasks, countP_tasks]
  simp only [pushShared, Injector.push, List.countP_append]
  omega

/-- A task pushed to a worker is one more, on its stack or in the shared queue. -/
theorem countP_pushLocal (task : τ) :
    (p.pushLocal index task).tasks.countP P = [task].countP P + p.tasks.countP P := by
  unfold pushLocal
  cases hpost : p.posts[index]? with
  | none => exact countP_pushShared task
  | some post =>
      dsimp only
      rw [countP_notifyIfUnsearched, countP_publish]
      cases hpush : post.worker.push? p.settings.localCapacity task with
      | none => exact countP_pushShared task
      | some worker =>
          have hworker : worker = post.worker.stackUp [task] := by
            unfold Worker.push? at hpush
            split at hpush
            · exact (Option.some.inj hpush).symm
            · exact nomatch hpush
          have hstack := post.worker.countP_stackUp (P := P) [task]
          have halter := countP_alter (P := P) (f := fun post => { post with worker }) hpost
          rw [Post.countP_tasks, Post.countP_tasks, hworker] at halter
          dsimp only at halter ⊢
          rw [hworker]
          omega

/-- A task for the next slot is one more: what it displaces is pushed on. -/
theorem countP_pushNext (task : τ) :
    (p.pushNext index task).tasks.countP P = [task].countP P + p.tasks.countP P := by
  unfold pushNext
  cases hpost : p.posts[index]? with
  | none => exact countP_pushShared task
  | some post =>
      have halter := countP_alter (P := P)
        (f := fun post' => { post' with worker := { post.worker with next := some task } }) hpost
      simp only [Post.countP_tasks, Worker.countP_tasks] at halter
      simp only [Worker.placeNext]
      -- an empty slot is filled, from a full one the former task goes to the stack
      cases hnext : post.worker.next with
      | none =>
          rw [hnext] at halter
          dsimp only [Option.toList_none, List.countP_nil, Option.toList_some] at halter ⊢
          rw [countP_publish]
          omega
      | some other =>
          rw [hnext] at halter
          dsimp only [Option.toList_some] at halter ⊢
          rw [countP_pushLocal]
          omega

/-- A scheduled task is one more. -/
theorem countP_schedule (task : τ) :
    (p.schedule task).tasks.countP P = [task].countP P + p.tasks.countP P := by
  unfold schedule
  split
  · exact countP_pushNext task
  · exact countP_pushShared task

/-- A task pushed to an inbox is one more. -/
theorem countP_pushInbox (task : τ) (h : index < p.size) :
    (p.pushInbox index task).tasks.countP P = [task].countP P + p.tasks.countP P := by
  have hpost : p.posts[index]? = some p.posts[index] := List.getElem?_eq_getElem h
  have halter := countP_alter (P := P)
    (f := fun post => { post with inbox := post.inbox.push task }) hpost
  simp only [Post.countP_tasks, Injector.push, List.countP_append] at halter
  unfold pushInbox
  dsimp only [Injector.push] at halter ⊢
  omega

/-- A new task is queued once, wherever the strategy wants it. -/
theorem countP_submit (task : τ) (destination : Destination) :
    (p.submit task destination).tasks.countP P = [task].countP P + p.tasks.countP P := by
  unfold submit
  cases destination with
  | shared => exact countP_pushShared task
  | worker index =>
      dsimp only
      split
      · next hlt =>
          split
          · exact countP_pushLocal task
          · exact countP_pushInbox task hlt
      · exact countP_pushShared task

theorem countP_requeue (task : τ) (h : index < p.size) :
    (p.requeue index task).tasks.countP P = [task].countP P + p.tasks.countP P := by
  rw [requeue, countP_notifyIfUnsearched, countP_pushInbox task h]

/-! ## Finding work -/

/-- A worker's next task leaves the pool, and nothing else does. -/
theorem countP_take (p : Pool τ) (index : Nat) :
    (p.take index).2.toList.countP P + (p.take index).1.tasks.countP P = p.tasks.countP P := by
  unfold take
  cases hpost : p.posts[index]? with
  | none => simp
  | some post =>
      cases hfound : post.worker.take p.batching post.inbox p.shared with
      | mk worker rest =>
          obtain ⟨inbox, shared, found⟩ := rest
          have htake := Worker.countP_take (P := P) hfound
          have halter := countP_alter (P := P) (p := { p with shared })
            (f := fun post => { post with worker, inbox }) hpost
          have hshared : ({ p with shared } : Pool τ).tasks.countP P + p.shared.tasks.countP P =
              p.tasks.countP P + shared.tasks.countP P := by
            rw [countP_tasks, countP_tasks]
            dsimp only
            omega
          rw [Post.countP_tasks, Post.countP_tasks] at halter
          dsimp only at halter ⊢
          rw [hfound]
          dsimp only
          rw [countP_publish]
          omega

/-- What a thief gets of one victim is what the victim loses. -/
theorem countP_robOne {thief victim : Nat} {oldest : τ} {more : List τ}
    (h : p.robOne thief victim = some (p', oldest, more)) :
    p.tasks.countP P = [oldest].countP P + more.countP P + p'.tasks.countP P := by
  unfold robOne at h
  split at h
  · exact nomatch h
  · next post hpost =>
      split at h
      · exact nomatch h
      -- the victim's stack is robbed before its inbox
      · split at h
        · next worker first rest hrob =>
            obtain ⟨rfl, hrest⟩ := Prod.mk.inj (Option.some.inj h)
            obtain ⟨rfl, rfl⟩ := Prod.mk.inj hrest
            have hcount := Worker.countP_rob (P := P) hrob
            have halter := countP_alter (P := P) (f := fun post => { post with worker }) hpost
            rw [Post.countP_tasks, Post.countP_tasks] at halter
            dsimp only at halter
            omega
        · obtain ⟨⟨inbox, first, rest⟩, htake, hfound⟩ := Option.map_eq_some_iff.mp h
          obtain ⟨rfl, hrest⟩ := Prod.mk.inj hfound
          obtain ⟨rfl, rfl⟩ := Prod.mk.inj hrest
          have hcount := Injector.countP_takeBatch (P := P) htake
          have halter := countP_alter (P := P) (f := fun post => { post with inbox }) hpost
          rw [Post.countP_tasks, Post.countP_tasks] at halter
          dsimp only at halter
          omega

/-- What a thief gets is what somebody, or the shared queue, loses. -/
theorem countP_robAny {thief : Nat} {victims : List Nat} {oldest : τ} {more : List τ}
    (h : p.robAny thief victims = some (p', oldest, more)) :
    p.tasks.countP P = [oldest].countP P + more.countP P + p'.tasks.countP P := by
  -- on the victims: who has nothing is passed over unchanged
  induction victims with
  | nil =>
      obtain ⟨⟨shared, first, rest⟩, htake, hfound⟩ := Option.map_eq_some_iff.mp h
      obtain ⟨rfl, hrest⟩ := Prod.mk.inj hfound
      obtain ⟨rfl, rfl⟩ := Prod.mk.inj hrest
      have hcount := Injector.countP_takeBatch (P := P) htake
      rw [countP_tasks, countP_tasks]
      dsimp only
      omega
  | cons victim rest ih =>
      unfold robAny at h
      split at h
      · next found hrob =>
          obtain rfl := Option.some.inj h
          exact countP_robOne hrob
      · exact ih h

/-- The task that a thief finds leaves the pool, and nothing else does: the rest of the
loot goes to the thief. -/
theorem countP_steal {thief : Nat} (hi : thief < p.size) (victims : List Nat) :
    ((p.steal thief victims).2.map (·.1)).toList.countP P +
      (p.steal thief victims).1.tasks.countP P = p.tasks.countP P := by
  unfold steal
  cases hsearch : p.beginSearch with
  | none => simp
  | some searching =>
      have hbegun : searching.tasks.countP P = p.tasks.countP P := by
        unfold beginSearch at hsearch
        split at hsearch
        · obtain rfl := Option.some.inj hsearch
          rfl
        · exact nomatch hsearch
      have hlooking : (searching.setPhase thief .stealing).tasks.countP P = p.tasks.countP P :=
        (countP_setPhase _).trans hbegun
      dsimp only
      -- the loot leaves its owner and is stacked up at the thief, but for the task handed out
      cases hrob : (searching.setPhase thief .stealing).robAny thief victims with
      | none =>
          simpa using hbegun
      | some found =>
          obtain ⟨robbed, task, more⟩ := found
          have hwithin : Within p robbed :=
            ((within_beginSearch hsearch).trans (within_alter _ _)).trans (within_robAny hrob)
          have hcount := countP_robAny (P := P) hrob
          have halter := countP_alter (P := P)
            (f := fun post => { post with worker := post.worker.stackUp more })
            (posts_get?_eq (hwithin.size.symm ▸ hi))
          rw [Post.countP_tasks, Post.countP_tasks, Worker.countP_stackUp] at halter
          dsimp only [Option.map_some, Option.toList_some] at halter ⊢
          split
          · rw [countP_endSearch, countP_publish]
            omega
          · rw [countP_notifyIfUnsearched, countP_endSearch, countP_publish]
            omega

/-- Parking moves no task. -/
theorem countP_park : (p.park index).tasks.countP P = p.tasks.countP P := by
  have hidle : (p.setPhase index .idle).tasks.countP P = p.tasks.countP P := countP_setPhase _
  unfold park
  dsimp only
  split
  · exact hidle
  · exact hidle

/-! ## Requests -/

/-- The task that a request brings into the pool. -/
def Request.brought : Request τ → Option τ
  | .schedule task => some task
  | .submit task _ => some task
  | .requeue _ task => some task
  | _ => none

/-- What a pool has after a request, with what it hands out, is what it had before, with
what was brought. -/
theorem countP_serve {r : Request τ} (hr : r.IsBy p.size) :
    (p.serve r).2.toList.countP P + (p.serve r).1.tasks.countP P =
      r.brought.toList.countP P + p.tasks.countP P := by
  cases r with
  | schedule task => simpa [serve, Request.brought] using countP_schedule task
  | submit task destination => simpa [serve, Request.brought] using countP_submit task destination
  | requeue index task => simpa [serve, Request.brought] using countP_requeue task hr
  | take index => simpa [serve, Request.brought] using p.countP_take index
  | steal thief victims => simpa [serve, Request.brought] using countP_steal hr victims
  | park index => simpa [serve, Request.brought] using countP_park
  | unpark index => simp [serve, Request.brought, unpark, tasks]
  | setPhase index phase => simp [serve, Request.brought]
  | recordTurn index alpha elapsed price => simp [serve, Request.brought]

end Pool

end Troupe
