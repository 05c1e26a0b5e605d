import Mathlib.Data.List.Basic
import Troupe.Scheduler.Pool

/-!
# Indices into a pool

The operations of a pool pass over an index that is no worker's. Below they are read
strictly: whoever goes to a post that is not there fails. For a pool whose parked and
current workers exist, asked on behalf of workers that exist, both readings agree,
whatever the strategy says: the places it names and the victims it lists are checked.

* `Within` — what operations leave as it is;
* `serve?_eq` — the strict reading of a request never fails;
* `InBounds.serve` — and the pool stays in bounds.
-/

namespace Troupe

namespace Pool

variable {τ : Type} {p p' p'' : Pool τ} {index : Nat}

/-! ## What operations leave as it is -/

/-- A pool after something was done in it: the same workers, and nobody parked. -/
structure Within (p p' : Pool τ) : Prop where
  size : p'.size = p.size
  parked : p'.parked ⊆ p.parked
  current : p'.current = p.current

theorem Within.refl (p : Pool τ) : Within p p := ⟨rfl, List.Subset.refl _, rfl⟩

theorem Within.trans (h : Within p p') (h' : Within p' p'') : Within p p'' :=
  ⟨h'.size.trans h.size, List.Subset.trans h'.parked h.parked, h'.current.trans h.current⟩

theorem within_alter (index : Nat) (f : Post τ → Post τ) : Within p (p.alter index f) := by
  refine ⟨?_, List.Subset.refl _, rfl⟩
  simp only [size, alter, List.length_modify]

theorem within_publish (index : Nat) : Within p (p.publish index) := within_alter index _

theorem within_notifyOne : Within p p.notifyOne := ⟨rfl, fun _ => List.mem_of_mem_tail, rfl⟩

/-- Waking a worker unless somebody searches parks nobody. -/
theorem within_notifyIfUnsearched : Within p p.notifyIfUnsearched := by
  unfold notifyIfUnsearched
  split
  · exact within_notifyOne
  · exact .refl p

theorem within_unpark : Within p (p.unpark index) := ⟨rfl, List.filter_subset_self _, rfl⟩

theorem within_pushShared (task : τ) : Within p (p.pushShared task) :=
  ⟨rfl, List.Subset.refl _, rfl⟩

/-- A task for a worker's stack parks nobody, wherever it ends up. -/
theorem within_pushLocal (task : τ) : Within p (p.pushLocal index task) := by
  unfold pushLocal
  split
  · exact within_pushShared task
  · refine Within.trans ?_ ((within_publish _).trans within_notifyIfUnsearched)
    split
    · exact within_alter _ _
    · exact within_pushShared task

/-- A task for a worker's next slot parks nobody, whatever it displaces. -/
theorem within_pushNext (task : τ) : Within p (p.pushNext index task) := by
  unfold pushNext
  split
  · exact within_pushShared task
  · dsimp only
    split
    · exact (within_alter _ _).trans (within_pushLocal _)
    · exact (within_alter _ _).trans (within_publish _)

/-- Scheduling a task parks nobody. -/
theorem within_schedule (task : τ) : Within p (p.schedule task) := by
  unfold schedule
  split
  · exact within_pushNext task
  · exact (within_pushShared task).trans within_notifyOne

/-- Submitting a task parks nobody. -/
theorem within_submit (task : τ) (destination : Destination) :
    Within p (p.submit task destination) := by
  unfold submit
  split
  · split
    · split
      · exact within_pushLocal task
      · exact (within_alter _ _).trans within_unpark
    · exact (within_pushShared task).trans within_notifyOne
  · exact (within_pushShared task).trans within_notifyOne

theorem within_requeue (task : τ) : Within p (p.requeue index task) :=
  (within_alter _ _).trans within_notifyIfUnsearched

/-- Taking a task parks nobody. -/
theorem within_take : Within p (p.take index).1 := by
  unfold take
  split
  · exact .refl p
  · next post hpost =>
      rcases post.worker.take p.batching post.inbox p.shared with ⟨worker, inbox, shared, task⟩
      have hleft : Within p { p with shared } := ⟨rfl, List.Subset.refl _, rfl⟩
      exact hleft.trans ((within_alter _ _).trans (within_publish _))

/-- Robbing one victim changes at most the victim. -/
theorem within_robOne {thief victim : Nat} {found : τ × List τ}
    (h : p.robOne thief victim = some (p', found)) : Within p p' := by
  unfold robOne at h
  split at h
  · exact nomatch h
  · split at h
    · exact nomatch h
    · split at h
      · obtain ⟨rfl, -⟩ := Prod.mk.inj (Option.some.inj h)
        exact within_alter _ _
      · obtain ⟨batch, -, hfound⟩ := Option.map_eq_some_iff.mp h
        obtain ⟨rfl, -⟩ := Prod.mk.inj hfound
        exact within_alter _ _

/-- Robbing whom one finds changes at most one post or the shared queue. -/
theorem within_robAny {thief : Nat} {victims : List Nat} {found : τ × List τ}
    (h : p.robAny thief victims = some (p', found)) : Within p p' := by
  -- on the victims: the first who has something is robbed, after them the shared queue
  induction victims with
  | nil =>
      obtain ⟨batch, -, hfound⟩ := Option.map_eq_some_iff.mp h
      obtain ⟨rfl, -⟩ := Prod.mk.inj hfound
      exact ⟨rfl, List.Subset.refl _, rfl⟩
  | cons victim rest ih =>
      unfold robAny at h
      split at h
      · next hrob =>
          obtain rfl := Option.some.inj h
          exact within_robOne hrob
      · exact ih h

/-- Beginning a search counts the searcher and nothing else. -/
theorem within_beginSearch (h : p.beginSearch = some p') : Within p p' := by
  unfold beginSearch at h
  split at h
  · obtain rfl := Option.some.inj h
    exact ⟨rfl, List.Subset.refl _, rfl⟩
  · exact nomatch h

theorem within_endSearch : Within p p.endSearch := ⟨rfl, List.Subset.refl _, rfl⟩

/-- A steal changes posts and searchers, and may wake a worker. -/
theorem within_steal {thief : Nat} (victims : List Nat) :
    Within p (p.steal thief victims).1 := by
  unfold steal
  -- the search may be refused, find nothing, or load the thief with what it found
  split
  · exact .refl p
  · next searching hsearch =>
      have hlooking : Within p (searching.setPhase thief .stealing) :=
        (within_beginSearch hsearch).trans (within_alter _ _)
      dsimp only
      split
      · exact hlooking.trans ((within_publish _).trans within_endSearch)
      · next robbed task more hrob =>
          have hloaded := (hlooking.trans (within_robAny hrob)).trans
            (within_alter thief fun post =>
              { post with worker := post.worker.stackUp more })
          have hended := hloaded.trans ((within_publish thief).trans within_endSearch)
          dsimp only
          split
          · exact hended
          · exact hended.trans within_notifyIfUnsearched

/-! ## Requests -/

/-- What a pool can be asked for while it runs. -/
inductive Request (τ : Type) where
  | schedule (task : τ)
  | submit (task : τ) (destination : Destination)
  | requeue (index : Nat) (task : τ)
  | take (index : Nat)
  | steal (thief : Nat) (victims : List Nat)
  | park (index : Nat)
  | unpark (index : Nat)
  | setPhase (index : Nat) (phase : WorkerPhase)
  | recordTurn (index : Nat) (alpha elapsed price : Float)

/-- Does what is asked for; answers the task that was found, if one was asked for. -/
def serve (p : Pool τ) : Request τ → Pool τ × Option τ
  | .schedule task => (p.schedule task, none)
  | .submit task destination => (p.submit task destination, none)
  | .requeue index task => (p.requeue index task, none)
  | .take index => p.take index
  | .steal thief victims => ((p.steal thief victims).1, (p.steal thief victims).2.map (·.1))
  | .park index => (p.park index, none)
  | .unpark index => (p.unpark index, none)
  | .setPhase index phase => (p.setPhase index phase, none)
  | .recordTurn index alpha elapsed price => (p.recordTurn index alpha elapsed price, none)

/-- The worker that asks, or is asked about, exists. What comes from a strategy, the
destination of a task and the victims of a thief, may be anything. -/
def Request.IsBy (size : Nat) : Request τ → Prop
  | .schedule _ => True
  | .submit _ _ => True
  | .requeue index _ => index < size
  | .take index => index < size
  | .steal thief _ => thief < size
  | .park index => index < size
  | .unpark index => index < size
  | .setPhase index _ => index < size
  | .recordTurn index _ _ _ => index < size

/-- The workers of whom the pool knows that they parked, and the one on whose behalf the
node acts, exist. -/
structure InBounds (p : Pool τ) : Prop where
  parked : ∀ i ∈ p.parked, i < p.size
  current : ∀ i, p.current = some i → i < p.size

/-- What keeps within a pool in bounds is in bounds. -/
theorem InBounds.within (hp : p.InBounds) (h : Within p p') : p'.InBounds := by
  constructor
  · intro i hi
    rw [h.size]
    exact hp.parked i (h.parked hi)
  · intro i hi
    rw [h.size]
    exact hp.current i (h.current.symm.trans hi)

/-- Parking a worker keeps the size of the pool. -/
theorem size_park : (p.park index).size = p.size := by
  have hidle : (p.setPhase index .idle).size = p.size := (within_alter _ _).size
  unfold park
  dsimp only
  split
  · exact hidle
  · exact hidle

/-- A worker of the pool may be parked. -/
theorem InBounds.park (hp : p.InBounds) (hi : index < p.size) : (p.park index).InBounds := by
  have hwithin : Within p (p.setPhase index .idle) := within_alter _ _
  have hidle : (p.setPhase index .idle).InBounds := hp.within hwithin
  unfold Pool.park
  dsimp only
  split
  · exact hidle
  · constructor
    · intro i hmem
      rcases List.mem_cons.mp hmem with rfl | hmem
      · exact hwithin.size.symm ▸ hi
      · exact hidle.parked i hmem
    · exact hidle.current

/-- No request changes the number of workers. -/
theorem size_serve (r : Request τ) : (p.serve r).1.size = p.size := by
  cases r with
  | schedule task => exact (within_schedule task).size
  | submit task destination => exact (within_submit task destination).size
  | requeue index task => exact (within_requeue task).size
  | take index => exact within_take.size
  | steal thief victims => exact (within_steal victims).size
  | park index => exact size_park
  | unpark index => exact within_unpark.size
  | setPhase index phase => exact (within_alter _ _).size
  | recordTurn index alpha elapsed price => exact (within_alter _ _).size

/-- A request by a worker of the pool leaves the pool in bounds. -/
theorem InBounds.serve (hp : p.InBounds) {r : Request τ} (hr : r.IsBy p.size) :
    (p.serve r).1.InBounds := by
  cases r with
  | schedule task => exact hp.within (within_schedule task)
  | submit task destination => exact hp.within (within_submit task destination)
  | requeue index task => exact hp.within (within_requeue task)
  | take index => exact hp.within within_take
  | steal thief victims => exact hp.within (within_steal victims)
  | park index => exact hp.park hr
  | unpark index => exact hp.within within_unpark
  | setPhase index phase => exact hp.within (within_alter _ _)
  | recordTurn index alpha elapsed price => exact hp.within (within_alter _ _)

/-! ## The strict reading -/

/-- Changes a post that has to be there. -/
def alter? (p : Pool τ) (index : Nat) (f : Post τ → Post τ) : Option (Pool τ) :=
  if index < p.size then some (p.alter index f) else none

def publish? (p : Pool τ) (index : Nat) : Option (Pool τ) :=
  p.alter? index fun post => { post with published := post.worker.length }

/-- Unparks the worker that parked last, which has to be there. -/
def notifyOne? (p : Pool τ) : Option (Pool τ) :=
  match p.parked with
  | [] => some p
  | index :: rest => if index < p.size then some { p with parked := rest } else none

def notifyIfUnsearched? (p : Pool τ) : Option (Pool τ) :=
  if p.searching = 0 then p.notifyOne? else some p

def unpark? (p : Pool τ) (index : Nat) : Option (Pool τ) :=
  if index < p.size then some (p.unpark index) else none

def pushLocal? (p : Pool τ) (index : Nat) (task : τ) : Option (Pool τ) := do
  let post ← p.posts[index]?
  let pushed ← match post.worker.push? p.settings.localCapacity task with
    | some worker => p.alter? index fun post => { post with worker }
    | none => some (p.pushShared task)
  (← pushed.publish? index).notifyIfUnsearched?

def pushNext? (p : Pool τ) (index : Nat) (task : τ) : Option (Pool τ) := do
  let post ← p.posts[index]?
  let (worker, displaced) := post.worker.placeNext task
  let placed ← p.alter? index fun post => { post with worker }
  match displaced with
  | some other => placed.pushLocal? index other
  | none => placed.publish? index

def schedule? (p : Pool τ) (task : τ) : Option (Pool τ) :=
  match p.current with
  | some index => p.pushNext? index task
  | none => (p.pushShared task).notifyOne?

def pushInbox? (p : Pool τ) (index : Nat) (task : τ) : Option (Pool τ) :=
  p.alter? index fun post => { post with inbox := post.inbox.push task }

def submit? (p : Pool τ) (task : τ) : Destination → Option (Pool τ)
  | .worker index =>
    -- the place a strategy names is looked at before anyone goes there
    if index < p.size then
      if p.current = some index then p.pushLocal? index task
      else do (← p.pushInbox? index task).unpark? index
    else (p.pushShared task).notifyOne?
  | .shared => (p.pushShared task).notifyOne?

def requeue? (p : Pool τ) (index : Nat) (task : τ) : Option (Pool τ) := do
  (← p.pushInbox? index task).notifyIfUnsearched?

def take? (p : Pool τ) (index : Nat) : Option (Pool τ × Option τ) := do
  let post ← p.posts[index]?
  let (worker, inbox, shared, task) := post.worker.take p.batching post.inbox p.shared
  let taken ← { p with shared }.alter? index fun post => { post with worker, inbox }
  return (← taken.publish? index, task)

def setPhase? (p : Pool τ) (index : Nat) (phase : WorkerPhase) : Option (Pool τ) :=
  p.alter? index fun post => { post with phase }

/-- Robs one victim; the answer within is what it yielded. -/
def robOne? (p : Pool τ) (thief victim : Nat) : Option (Option (Pool τ × τ × List τ)) :=
  -- the victims a strategy lists are looked at before anyone goes there
  if victim = thief ∨ p.size ≤ victim then some none
  else do
    let post ← p.posts[victim]?
    match post.worker.rob p.batching with
    | some (worker, task, more) =>
      return some (← p.alter? victim fun post => { post with worker }, task, more)
    | none =>
      match post.inbox.takeBatch p.batching with
      | some (inbox, task, more) =>
        return some (← p.alter? victim fun post => { post with inbox }, task, more)
      | none => return none

def robAny? (p : Pool τ) (thief : Nat) : List Nat → Option (Option (Pool τ × τ × List τ))
  | [] => some (p.robAny thief [])
  | victim :: rest => do
    match ← p.robOne? thief victim with
    | some found => return some found
    | none => p.robAny? thief rest

def steal? (p : Pool τ) (thief : Nat) (victims : List Nat) :
    Option (Pool τ × Option (τ × Nat)) :=
  match p.beginSearch with
  | none => some (p, none)
  | some searching => do
    let searching ← searching.setPhase? thief .stealing
    match ← searching.robAny? thief victims with
    | none => return ((← searching.publish? thief).endSearch, none)
    | some (robbed, task, more) =>
      let loaded ← robbed.alter? thief fun post =>
        { post with worker := post.worker.stackUp more }
      let ended := (← loaded.publish? thief).endSearch
      return (← if more.isEmpty then some ended else ended.notifyIfUnsearched?,
        some (task, more.length + 1))

def park? (p : Pool τ) (index : Nat) : Option (Pool τ) := do
  let idle ← p.setPhase? index .idle
  let post ← idle.posts[index]?
  return if !idle.shared.isEmpty || !post.inbox.isEmpty then idle
    else { idle with parked := index :: idle.parked }

def recordTurn? (p : Pool τ) (index : Nat) (alpha elapsed price : Float) : Option (Pool τ) :=
  if index < p.size then some (p.recordTurn index alpha elapsed price) else none

/-- Does what is asked for, but goes to posts that are there only. -/
def serve? (p : Pool τ) : Request τ → Option (Pool τ × Option τ)
  | .schedule task => (p.schedule? task).map (·, none)
  | .submit task destination => (p.submit? task destination).map (·, none)
  | .requeue index task => (p.requeue? index task).map (·, none)
  | .take index => p.take? index
  | .steal thief victims => (p.steal? thief victims).map fun (p, found) => (p, found.map (·.1))
  | .park index => (p.park? index).map (·, none)
  | .unpark index => (p.unpark? index).map (·, none)
  | .setPhase index phase => (p.setPhase? index phase).map (·, none)
  | .recordTurn index alpha elapsed price =>
      (p.recordTurn? index alpha elapsed price).map (·, none)

/-! ## Both readings agree -/

theorem alter?_eq (hi : index < p.size) (f : Post τ → Post τ) :
    p.alter? index f = some (p.alter index f) := if_pos hi

theorem publish?_eq (hi : index < p.size) : p.publish? index = some (p.publish index) :=
  alter?_eq hi _

theorem posts_get?_eq (hi : index < p.size) : p.posts[index]? = some p.posts[index] :=
  List.getElem?_eq_getElem hi

/-- Whoever is parked is a worker of the pool, so that waking one stays within bounds. -/
theorem notifyOne?_eq (hp : p.InBounds) : p.notifyOne? = some p.notifyOne := by
  unfold notifyOne? notifyOne
  split
  · next hparked =>
      have htail : p.parked.tail = p.parked := by rw [hparked, List.tail_nil]
      rw [htail]
  · next index rest hparked =>
      have hi : index < p.size := hp.parked index (by rw [hparked]; exact List.mem_cons_self)
      rw [if_pos hi, hparked, List.tail_cons]

/-- Waking a worker unless somebody searches stays within bounds. -/
theorem notifyIfUnsearched?_eq (hp : p.InBounds) :
    p.notifyIfUnsearched? = some p.notifyIfUnsearched := by
  unfold notifyIfUnsearched? notifyIfUnsearched
  split
  · exact notifyOne?_eq hp
  · rfl

/-- Publishing a state and then waking a worker stays within bounds. -/
theorem publish_notify?_eq (hp : p.InBounds) (hi : index < p.size) :
    (do (← p.publish? index).notifyIfUnsearched?) =
      some (p.publish index).notifyIfUnsearched := by
  rw [publish?_eq hi]
  exact notifyIfUnsearched?_eq (hp.within (within_publish _))

/-- Pushing to the stack of a worker of the pool stays within bounds. -/
theorem pushLocal?_eq (hp : p.InBounds) (hi : index < p.size) (task : τ) :
    p.pushLocal? index task = some (p.pushLocal index task) := by
  unfold pushLocal? pushLocal
  simp only [posts_get?_eq hi, Option.bind_eq_bind, Option.bind_some]
  cases (p.posts[index]).worker.push? p.settings.localCapacity task with
  | none =>
      have hpushed := within_pushShared (p := p) task
      exact publish_notify?_eq (hp.within hpushed) (hpushed.size.symm ▸ hi)
  | some worker =>
      have hpushed := within_alter (p := p) index fun post => { post with worker }
      simp only [alter?_eq hi, Option.bind_some]
      exact publish_notify?_eq (hp.within hpushed) (hpushed.size.symm ▸ hi)

/-- Filling the next slot of a worker of the pool stays within bounds. -/
theorem pushNext?_eq (hp : p.InBounds) (hi : index < p.size) (task : τ) :
    p.pushNext? index task = some (p.pushNext index task) := by
  unfold pushNext? pushNext
  have hplaced := within_alter (p := p) index fun post =>
    { post with worker := (p.posts[index].worker.placeNext task).1 }
  simp only [posts_get?_eq hi, Option.bind_eq_bind, Option.bind_some, alter?_eq hi]
  cases (p.posts[index].worker.placeNext task).2 with
  | none => exact publish?_eq (hplaced.size.symm ▸ hi)
  | some other => exact pushLocal?_eq (hp.within hplaced) (hplaced.size.symm ▸ hi) other

theorem pushShared_notify?_eq (hp : p.InBounds) (task : τ) :
    (p.pushShared task).notifyOne? = some (p.pushShared task).notifyOne :=
  notifyOne?_eq (hp.within (within_pushShared task))

/-- Scheduling stays within bounds: the caller is a worker of the pool or nobody. -/
theorem schedule?_eq (hp : p.InBounds) (task : τ) :
    p.schedule? task = some (p.schedule task) := by
  unfold schedule? schedule
  cases hcurrent : p.current with
  | some index => exact pushNext?_eq hp (hp.current index hcurrent) task
  | none => exact pushShared_notify?_eq hp task

/-- Submitting stays within bounds: the destination is looked up before it is used. -/
theorem submit?_eq (hp : p.InBounds) (task : τ) (destination : Destination) :
    p.submit? task destination = some (p.submit task destination) := by
  cases destination with
  | shared => exact pushShared_notify?_eq hp task
  | worker index =>
      simp only [submit?, submit]
      split
      · next hi =>
          split
          · exact pushLocal?_eq hp hi task
          · have hpushed := within_alter (p := p) index fun post =>
              { post with inbox := post.inbox.push task }
            simp only [pushInbox?, alter?_eq hi, Option.bind_eq_bind, Option.bind_some]
            exact if_pos (hpushed.size.symm ▸ hi)
      · exact pushShared_notify?_eq hp task

theorem requeue?_eq (hp : p.InBounds) (hi : index < p.size) (task : τ) :
    p.requeue? index task = some (p.requeue index task) := by
  simp only [requeue?, pushInbox?, alter?_eq hi, Option.bind_eq_bind, Option.bind_some]
  exact notifyIfUnsearched?_eq (hp.within (within_alter _ _))

/-- Taking stays within bounds for a worker of the pool. -/
theorem take?_eq (hi : index < p.size) : p.take? index = some (p.take index) := by
  unfold take? take
  simp only [posts_get?_eq hi, Option.bind_eq_bind, Option.bind_some]
  rcases p.posts[index].worker.take p.batching p.posts[index].inbox p.shared with
    ⟨worker, inbox, shared, task⟩
  have htaken := within_alter (p := { p with shared }) index fun post =>
    { post with worker, inbox }
  simp only [alter?_eq (p := { p with shared }) hi, Option.bind_some,
    publish?_eq (htaken.size.symm ▸ hi)]
  rfl

/-- Robbing stays within bounds whoever the victim is: who is not there is passed over. -/
theorem robOne?_eq (thief victim : Nat) :
    p.robOne? thief victim = some (p.robOne thief victim) := by
  unfold robOne? robOne
  -- the guard excludes the thief and whoever is out of bounds before a post is looked up
  split
  · next hguard =>
      rcases hguard with rfl | hge
      · split
        · rfl
        · rw [if_pos rfl]
      · rw [List.getElem?_eq_none_iff.mpr hge]
  · next hguard =>
      obtain ⟨hne, hge⟩ := not_or.mp hguard
      have hlt : victim < p.size := Nat.not_le.mp hge
      obtain ⟨post, hpost⟩ : ∃ post, p.posts[victim]? = some post := ⟨_, posts_get?_eq hlt⟩
      simp only [hpost, Option.bind_eq_bind, Option.bind_some, if_neg hne]
      cases post.worker.rob p.batching with
      | some found =>
          simp only [alter?_eq hlt, Option.bind_some]
          rfl
      | none =>
          cases post.inbox.takeBatch p.batching with
          | none => rfl
          | some batch =>
              simp only [alter?_eq hlt, Option.bind_some]
              rfl

/-- Robbing a list of victims stays within bounds. -/
theorem robAny?_eq (thief : Nat) (victims : List Nat) :
    p.robAny? thief victims = some (p.robAny thief victims) := by
  induction victims with
  | nil => rfl
  | cons victim rest ih =>
      simp only [robAny?, robAny, robOne?_eq, ih, Option.bind_eq_bind, Option.bind_some]
      cases p.robOne thief victim with
      | some found => rfl
      | none => rfl

/-- A steal by a worker of the pool stays within bounds. -/
theorem steal?_eq (hp : p.InBounds) {thief : Nat} (hi : thief < p.size) (victims : List Nat) :
    p.steal? thief victims = some (p.steal thief victims) := by
  unfold steal? steal
  cases hsearch : p.beginSearch with
  | none => rfl
  | some searching =>
      have hbegun := within_beginSearch hsearch
      have hlooking : Within p (searching.setPhase thief .stealing) :=
        hbegun.trans (within_alter _ _)
      have hphase : searching.setPhase? thief .stealing =
          some (searching.setPhase thief .stealing) := alter?_eq (hbegun.size.symm ▸ hi) _
      simp only [hphase, robAny?_eq, Option.bind_eq_bind, Option.bind_some]
      -- the number of workers is the same throughout, so every post that is touched is there
      cases hrob : (searching.setPhase thief .stealing).robAny thief victims with
      | none =>
          simp only [publish?_eq (hlooking.size.symm ▸ hi), Option.bind_some]
          rfl
      | some found =>
          obtain ⟨robbed, task, more⟩ := found
          have hrobbed := hlooking.trans (within_robAny hrob)
          have hloaded := hrobbed.trans (within_alter thief fun post =>
            { post with worker := post.worker.stackUp more })
          have hended := hloaded.trans ((within_publish thief).trans within_endSearch)
          simp only [alter?_eq (hrobbed.size.symm ▸ hi), publish?_eq (hloaded.size.symm ▸ hi),
            notifyIfUnsearched?_eq (hp.within hended), Option.bind_some]
          split
          · rfl
          · rfl

/-- Parking stays within bounds for a worker of the pool. -/
theorem park?_eq (hi : index < p.size) : p.park? index = some (p.park index) := by
  have hidle : index < (p.setPhase index .idle).size := by
    rw [setPhase, (within_alter _ _).size]
    exact hi
  have hphase : p.setPhase? index .idle = some (p.setPhase index .idle) := alter?_eq hi _
  unfold park? park hasWork
  simp only [hphase, posts_get?_eq hidle, Option.bind_eq_bind, Option.bind_some,
    Option.map_some, Option.getD_some]
  rfl

/-- Whatever a pool in bounds is asked for on behalf of a worker that exists, nobody goes
to a post that is not there. -/
theorem serve?_eq (hp : p.InBounds) {r : Request τ} (hr : r.IsBy p.size) :
    p.serve? r = some (p.serve r) := by
  cases r with
  | schedule task => simp only [serve?, schedule?_eq hp, Option.map_some, serve]
  | submit task destination => simp only [serve?, submit?_eq hp, Option.map_some, serve]
  | requeue index task => simp only [serve?, requeue?_eq hp hr, Option.map_some, serve]
  | take index => exact take?_eq hr
  | steal thief victims => simp only [serve?, steal?_eq hp hr, Option.map_some, serve]
  | park index => simp only [serve?, park?_eq hr, Option.map_some, serve]
  | unpark index => exact congrArg (Option.map (·, none)) (if_pos hr)
  | setPhase index phase =>
      simp only [serve?, setPhase?, alter?_eq hr, Option.map_some, serve]
      rfl
  | recordTurn index alpha elapsed price =>
      exact congrArg (Option.map (·, none)) (if_pos hr)

end Pool

end Troupe
