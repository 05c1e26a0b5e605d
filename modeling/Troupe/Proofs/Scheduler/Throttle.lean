import Troupe.Proofs.Scheduler.Capacity
import Troupe.Proofs.Scheduler.Floor

/-!
# Workers that look for work at the same time

A worker without work reads how many search already and, below the limit, exchanges that number for
the next one. The exchange fails when the number is another by then, and may fail for no reason; the
worker reads again. Once it was let in, it asks the strategy for victims, robs one after the other,
looks into the shared queue, may do all of that again, and takes itself off the count. Here the
steps of all workers mix, with anything else that is done in the pool between them.

* `Search.moves_step` — a step counts a worker in when it is let in and out when it leaves;
* `Hunt.Kept.next` — so the count is that of the workers in between, and keeps to the limit;
* `Hunt.steal_alone` — left alone, a worker does what `Pool.steal` says;
* `Hunt.run_isThrottled` — what holds of the count in every run.
-/

namespace Troupe

variable {τ : Type}

namespace Pool

variable {p p' : Pool τ} {index : Nat}

/-- Counts one more worker in, if as many search as were seen to. -/
def exchange? (p : Pool τ) (seen : Nat) : Option (Pool τ) :=
  if p.searching = seen then some { p with searching := seen + 1 } else none

/-! ## What leaves the count as it is -/

/-- Waking a worker lets nobody into the search. -/
theorem searching_notifyIfUnsearched : p.notifyIfUnsearched.searching = p.searching := by
  unfold notifyIfUnsearched
  split
  · rfl
  · rfl

/-- A task for a worker's stack lets nobody into the search. -/
theorem searching_pushLocal (task : τ) : (p.pushLocal index task).searching = p.searching := by
  unfold pushLocal
  split
  · rfl
  · refine searching_notifyIfUnsearched.trans ?_
    split
    · rfl
    · rfl

theorem searching_pushNext (task : τ) : (p.pushNext index task).searching = p.searching := by
  unfold pushNext
  split
  · rfl
  · dsimp only
    split
    · exact searching_pushLocal _
    · rfl

theorem searching_schedule (task : τ) : (p.schedule task).searching = p.searching := by
  unfold schedule
  split
  · exact searching_pushNext task
  · rfl

theorem searching_submit (task : τ) (destination : Destination) :
    (p.submit task destination).searching = p.searching := by
  unfold submit
  split
  · split
    · split
      · exact searching_pushLocal task
      · rfl
    · rfl
  · rfl

/-- Who takes a task of the pool's does not search. -/
theorem searching_take : (p.take index).1.searching = p.searching := by
  unfold take
  split
  · rfl
  · rfl

/-- A parked worker has left the search before. -/
theorem searching_park : (p.park index).searching = p.searching := by
  unfold park
  dsimp only
  split
  · rfl
  · rfl

/-- Robbing happens within a search. -/
theorem searching_robOne {thief victim : Nat} {found : τ × List τ}
    (h : p.robOne thief victim = some (p', found)) : p'.searching = p.searching := by
  unfold robOne at h
  split at h
  · exact nomatch h
  · split at h
    · exact nomatch h
    · split at h
      · obtain ⟨rfl, -⟩ := Prod.mk.inj (Option.some.inj h)
        rfl
      · obtain ⟨batch, -, hfound⟩ := Option.map_eq_some_iff.mp h
        obtain ⟨rfl, -⟩ := Prod.mk.inj hfound
        rfl

/-- Robbing a list of victims happens within a search. -/
theorem searching_robAny {thief : Nat} {victims : List Nat} {found : τ × List τ}
    (h : p.robAny thief victims = some (p', found)) : p'.searching = p.searching := by
  induction victims with
  | nil =>
      obtain ⟨batch, -, hfound⟩ := Option.map_eq_some_iff.mp h
      obtain ⟨rfl, -⟩ := Prod.mk.inj hfound
      rfl
  | cons victim rest ih =>
      unfold robAny at h
      split at h
      · next hrob =>
          obtain rfl := Option.some.inj h
          exact searching_robOne hrob
      · exact ih h

/-- Beginning a search counts one searcher more. -/
theorem searching_beginSearch (h : p.beginSearch = some p') :
    p'.searching = p.searching + 1 := by
  unfold beginSearch at h
  split at h
  · obtain rfl := Option.some.inj h
    rfl
  · exact nomatch h

/-- A steal in one go counts its worker in and out again. -/
theorem searching_steal (thief : Nat) (victims : List Nat) :
    (p.steal thief victims).1.searching = p.searching := by
  unfold steal
  -- every way out of the search counts the searcher off again
  split
  · rfl
  · next searching hsearch =>
      have hlet : searching.searching = p.searching + 1 := searching_beginSearch hsearch
      dsimp only
      split
      · exact congrArg (· - 1) hlet
      · next robbed task more hrob =>
          have hrobbed : robbed.searching - 1 = p.searching :=
            congrArg (· - 1) ((searching_robAny hrob).trans hlet)
          dsimp only
          split
          · exact hrobbed
          · exact searching_notifyIfUnsearched.trans hrobbed

/-- Whatever is done in a pool in one go, as many workers search afterwards as before. -/
theorem searching_obey (p : Pool τ) (order : Order τ) :
    (p.obey order).searching = p.searching := by
  obtain ⟨caller, request⟩ := order
  cases request with
  | schedule task => exact searching_schedule task
  | submit task destination => exact searching_submit task destination
  | requeue index task => exact searching_notifyIfUnsearched
  | take index => exact searching_take
  | steal thief victims => exact searching_steal thief victims
  | park index => exact searching_park
  | unpark index => rfl
  | setPhase index phase => rfl
  | recordTurn index alpha elapsed price => rfl

end Pool

/-! ## Searches in progress -/

/-- A worker's search for work, in progress. -/
inductive Search (τ : Type) where
  /-- About to read how many search. -/
  | arriving
  /-- Has read how many do: about to exchange that for one more, below the limit. -/
  | knocking (seen : Nat)
  /-- Was let in: about to show that it steals. -/
  | entering
  /-- About to ask the strategy for victims. -/
  | asking
  /-- About to rob the next of the victims left, or else to look into the shared queue; with so
  many rounds to come after this one. -/
  | robbing (victims left : List Nat) (rounds : Nat)
  /-- About to publish how many tasks it has. -/
  | publishing (found : Option (τ × Nat))
  /-- About to take itself off the count. -/
  | leaving (found : Option (τ × Nat))
  /-- Has found more than it can run at once: about to wake a peer, if nobody searches. -/
  | helping (found : τ × Nat)

namespace Search

/-- Whether the worker was let in and has not left yet. -/
def isInside : Search τ → Bool
  | arriving | knocking _ | helping _ => false
  | entering | asking | robbing .. | publishing _ | leaving _ => true

/-- How a search goes on after it left the count. -/
def afterwards : Option (τ × Nat) → Search τ ⊕ Option (τ × Nat)
  | some (task, count) =>
    if 1 < count then .inl (.helping (task, count)) else .inr (some (task, count))
  | none => .inr none

/-- How it goes on where all victims and the shared queue were in vain. -/
def again (victims : List Nat) : Nat → Search τ
  | 0 => publishing none
  | rounds + 1 => robbing victims victims rounds

/-- What a robbery that may have yielded something comes to. -/
def haul (p : Pool τ) (thief : Nat) (otherwise : Search τ) :
    Option (Pool τ × τ × List τ) → Pool τ × (Search τ ⊕ Option (τ × Nat))
  | some (robbed, task, more) =>
    (robbed.loaded thief more, .inl (.publishing (some (task, more.length + 1))))
  | none => (p, .inl otherwise)

/-- A step of a search: it goes on, or returns with a task and the number of tasks taken with it, if
it found any. An exchange may fail for no reason, and the victims are what the strategy answers if
it is asked. -/
def step (p : Pool τ) (thief : Nat) (fails : Bool) (victims : List Nat) :
    Search τ → Pool τ × (Search τ ⊕ Option (τ × Nat))
  | .arriving => (p, .inl (.knocking p.searching))
  | .knocking seen =>
    if p.searchers ≤ seen then (p, .inr none)
    else
      match if fails then none else p.exchange? seen with
      | some counted => (counted, .inl .entering)
      | none => (p, .inl (.knocking p.searching))
  | .entering => (p.setPhase thief .stealing, .inl .asking)
  | .asking => (p, .inl (.robbing victims victims (p.settings.stealAttempts - 1)))
  | .robbing victims (victim :: left) rounds =>
    haul p thief (.robbing victims left rounds) (p.robOne thief victim)
  | .robbing victims [] rounds =>
    haul p thief (again victims rounds) (p.robAny thief [])
  | .publishing found => (p.publish thief, .inl (.leaving found))
  | .leaving found => (p.endSearch, afterwards found)
  | .helping found => (p.notifyIfUnsearched, .inr (some found))

/-! ### What a step can be -/

/-- What a step of a search does to the count. -/
inductive Moves (p : Pool τ) (search : Search τ) :
    Pool τ × (Search τ ⊕ Option (τ × Nat)) → Prop where
  /-- The worker is let in and counted. -/
  | enters (hsearch : search = .knocking p.searching) (hroom : p.searching < p.searchers) :
      Moves p search ({ p with searching := p.searching + 1 }, .inl .entering)
  /-- It leaves and is counted no more. -/
  | leaves (found : Option (τ × Nat)) (hsearch : search = .leaving found) :
      Moves p search (p.endSearch, afterwards found)
  /-- It stays inside, or outside. -/
  | stays (p' : Pool τ) (answer : Search τ ⊕ Option (τ × Nat)) (hsize : p'.size = p.size)
      (hsearching : p'.searching = p.searching)
      (hinside : answer.getLeft?.any isInside = search.isInside) : Moves p search (p', answer)

/-- What is found is no move in or out, whichever way it goes on. -/
theorem moves_haul {p : Pool τ} {thief : Nat} {search otherwise : Search τ}
    {found : Option (Pool τ × τ × List τ)} (hsearch : search.isInside = true)
    (hotherwise : otherwise.isInside = true)
    (hfound : ∀ p' loot, found = some (p', loot) →
      p'.size = p.size ∧ p'.searching = p.searching) :
    Moves p search (haul p thief otherwise found) := by
  cases found with
  | none => exact .stays p _ rfl rfl (hotherwise.trans hsearch.symm)
  | some yielded =>
      obtain ⟨robbed, task, more⟩ := yielded
      obtain ⟨hsize, hsearching⟩ := hfound robbed (task, more) rfl
      refine .stays (robbed.loaded thief more) _ ?_ hsearching hsearch.symm
      exact (Pool.within_alter thief _).size.trans hsize

/-- Another round is made inside. -/
theorem isInside_again (victims : List Nat) (rounds : Nat) :
    (again victims rounds : Search τ).isInside = true := by
  cases rounds with
  | zero => rfl
  | succ rounds => rfl

/-- A step of a search enters it, leaves it or stays where it is. -/
theorem moves_step (p : Pool τ) (thief : Nat) (fails : Bool) (victims : List Nat)
    (search : Search τ) : Moves p search (search.step p thief fails victims) := by
  cases search with
  | arriving => exact .stays p _ rfl rfl rfl
  | knocking seen =>
      by_cases hfull : p.searchers ≤ seen
      · simp only [step, if_pos hfull]
        exact .stays p _ rfl rfl rfl
      -- the exchange succeeds only on the count that was seen, and may fail even then
      · by_cases hsame : fails = false ∧ p.searching = seen
        · obtain ⟨rfl, rfl⟩ := hsame
          simp only [step, if_neg hfull, Pool.exchange?, if_true, if_neg Bool.false_ne_true]
          exact .enters rfl (Nat.lt_of_not_le hfull)
        · have hfailed : (if fails then none else p.exchange? seen) = none := by
            cases fails with
            | true => rfl
            | false => exact if_neg fun hseen => hsame ⟨rfl, hseen⟩
          simp only [step, if_neg hfull, hfailed]
          exact .stays p _ rfl rfl rfl
  | entering => exact .stays _ _ (Pool.within_alter thief _).size rfl rfl
  | asking => exact .stays p _ rfl rfl rfl
  | robbing victims left rounds =>
      cases left with
      | cons victim left =>
          refine moves_haul rfl rfl fun p' loot hrob => ?_
          exact ⟨(Pool.within_robOne hrob).size, Pool.searching_robOne hrob⟩
      | nil =>
          refine moves_haul rfl (isInside_again victims rounds) fun p' loot hrob => ?_
          exact ⟨(Pool.within_robAny hrob).size, Pool.searching_robAny hrob⟩
  | publishing found => exact .stays _ _ (Pool.within_publish thief).size rfl rfl
  | leaving found => exact .leaves found rfl
  | helping found =>
      exact .stays _ _ Pool.within_notifyIfUnsearched.size Pool.searching_notifyIfUnsearched rfl

/-- Nobody who has left is inside. -/
theorem any_isInside_afterwards (found : Option (τ × Nat)) :
    (afterwards found).getLeft?.any isInside = false := by
  unfold afterwards
  split
  · split
    · rfl
    · rfl
  · rfl

/-! ### Left alone -/

/-- What a worker comes to that goes on alone, whether it still searches or returns now. -/
inductive ComesTo (thief : Nat) (victims : List Nat) :
    Pool τ × (Search τ ⊕ Option (τ × Nat)) → Pool τ × Option (τ × Nat) → Prop where
  | returns (p : Pool τ) (found : Option (τ × Nat)) :
      ComesTo thief victims (p, .inr found) (p, found)
  | goesOn {p : Pool τ} {search : Search τ} {result : Pool τ × Option (τ × Nat)}
      (h : ComesTo thief victims (search.step p thief false victims) result) :
      ComesTo thief victims (p, .inl search) result

variable {p : Pool τ} {thief : Nat} {victims : List Nat} {result : Pool τ × Option (τ × Nat)}

/-- One victim after the other, and then the shared queue. -/
theorem comesTo_robbing (left : List Nat) (rounds : Nat)
    (h : ComesTo thief victims (haul p thief (again victims rounds) (p.robAny thief left)) result) :
    ComesTo thief victims (p, .inl (.robbing victims left rounds)) result := by
  -- on the victims still to be tried, as the search goes through them
  induction left with
  | nil => exact .goesOn h
  | cons victim left ih =>
      refine .goesOn ?_
      rw [Pool.robAny] at h
      rw [step]
      cases hrob : p.robOne thief victim with
      | some found =>
          rw [hrob] at h
          exact h
      | none =>
          rw [hrob] at h
          exact ih h

/-- Where there is nothing to rob there is nothing in any further round either. -/
theorem comesTo_again (hrob : p.robAny thief victims = none) (rounds : Nat)
    (h : ComesTo thief victims (p, .inl (.publishing none)) result) :
    ComesTo thief victims (p, .inl (again victims rounds)) result := by
  induction rounds with
  | zero => exact h
  | succ rounds ih =>
      refine comesTo_robbing victims rounds ?_
      rw [hrob]
      exact ih

/-- A worker that goes on alone does at length what a steal does in one go. -/
theorem comesTo_steal (p : Pool τ) (thief : Nat) (victims : List Nat) :
    ComesTo thief victims (p, .inl .arriving) (p.steal thief victims) := by
  refine .goesOn (.goesOn ?_)
  rw [step]
  unfold Pool.steal Pool.beginSearch
  -- undisturbed, the exchange finds the count that was loaded
  by_cases hfull : p.searchers ≤ p.searching
  · rw [if_pos hfull, if_neg (Nat.not_lt.mpr hfull)]
    exact .returns p none
  · rw [if_neg hfull, if_pos (Nat.lt_of_not_le hfull)]
    simp only [Bool.false_eq_true, if_false, Pool.exchange?, if_true]
    refine .goesOn (.goesOn (comesTo_robbing victims _ ?_))
    split
    · next hrob =>
        rw [hrob]
        exact comesTo_again hrob _ (.goesOn (.goesOn (.returns _ none)))
    · next robbed task more hrob =>
        rw [hrob]
        -- with more than one task a peer may have to be woken after the worker has left
        cases more with
        | nil => exact .goesOn (.goesOn (.returns _ _))
        | cons other others => exact .goesOn (.goesOn (.goesOn (.returns _ _)))

end Search

/-! ## All workers together -/

/-- A pool, the searches of its workers in progress, and what came of those that are over. -/
structure Hunt (workers : Nat) (τ : Type) where
  pool : Pool τ
  searches : Fin workers → Option (Search τ)
  history : List (Fin workers × Option (τ × Nat))

namespace Hunt

variable {workers : Nat}

/-- A new pool, and nobody searches. -/
def opening (settings : SchedulerSettings) (workers : Nat) (batching : Batching τ) :
    Hunt workers τ :=
  ⟨.ofSettings settings workers batching, fun _ => none, []⟩

/-- What can happen next. -/
inductive Action (workers : Nat) (τ : Type) where
  /-- A worker begins to search. -/
  | call (worker : Fin workers)
  /-- A worker goes on with its search. -/
  | step (worker : Fin workers) (fails : Bool) (victims : List Nat)
  /-- Somebody does something else in the pool. -/
  | obey (order : Pool.Order τ)

/-- A worker has come so far: it still searches, or it returned. -/
def settle (s : Hunt workers τ) (worker : Fin workers)
    (moved : Pool τ × (Search τ ⊕ Option (τ × Nat))) : Hunt workers τ where
  pool := moved.1
  searches := Function.update s.searches worker moved.2.getLeft?
  history := s.history ++ moved.2.getRight?.toList.map fun found => (worker, found)

def next (s : Hunt workers τ) : Action workers τ → Hunt workers τ
  | .call worker =>
    match s.searches worker with
    | none => s.settle worker (s.pool, .inl .arriving)
    | some _ => s
  | .step worker fails victims =>
    match s.searches worker with
    | none => s
    | some search => s.settle worker (search.step s.pool worker fails victims)
  | .obey order => { s with pool := s.pool.obey order }

/-- What comes of actions one after another. -/
def run (s : Hunt workers τ) (actions : List (Action workers τ)) : Hunt workers τ :=
  actions.foldl next s

/-- The workers that were let in and have not left yet. -/
def insiders (s : Hunt workers τ) : Finset (Fin workers) :=
  Finset.univ.filter fun worker => (s.searches worker).any Search.isInside

/-! ### The count -/

/-- The count is right, and within its limit. -/
structure Kept (s : Hunt workers τ) : Prop where
  size : s.pool.size = workers
  counts : s.pool.searching = s.insiders.card
  limited : s.pool.searching ≤ s.pool.searchers

variable {s s' : Hunt workers τ} {worker : Fin workers}

/-- When one worker goes on, the insiders become more or fewer by that worker. -/
theorem card_insiders_update (worker : Fin workers) (after : Option (Search τ))
    (hafter : s'.searches = Function.update s.searches worker after) :
    s'.insiders.card + ((s.searches worker).any Search.isInside).toNat =
      s.insiders.card + (after.any Search.isInside).toNat := by
  have hcard : ∀ s : Hunt workers τ, s.insiders.card =
      ∑ w, ((s.searches w).any Search.isInside).toNat := by
    intro s
    rw [insiders, Finset.card_filter]
    refine Finset.sum_congr rfl fun w _ => ?_
    cases (s.searches w).any Search.isInside <;> rfl
  rw [hcard, hcard, hafter]
  exact Floor.sum_update s.searches worker after fun search =>
    (search.any Search.isInside).toNat

/-- At the opening nobody searches. -/
theorem kept_opening (settings : SchedulerSettings) (workers : Nat) (batching : Batching τ) :
    (opening settings workers batching).Kept where
  size := List.length_replicate
  counts := by simp [opening, insiders, Pool.ofSettings]
  limited := Nat.zero_le _

/-- An insider is counted. -/
theorem Kept.one_le_searching (hs : s.Kept) {search : Search τ}
    (hsearch : s.searches worker = some search) (hinside : search.isInside = true) :
    1 ≤ s.pool.searching := by
  rw [hs.counts]
  refine Finset.card_pos.mpr ⟨worker, Finset.mem_filter.mpr ⟨Finset.mem_univ worker, ?_⟩⟩
  rw [hsearch]
  exact hinside

/-- A move keeps the count of a worker that was counted as its search says. -/
theorem Kept.settle (hs : s.Kept) {search : Search τ}
    (hsearch : (s.searches worker).any Search.isInside = search.isInside)
    {moved : Pool τ × (Search τ ⊕ Option (τ × Nat))} (hmoves : search.Moves s.pool moved) :
    (s.settle worker moved).Kept := by
  have hafter : (s.settle worker moved).searches =
      Function.update s.searches worker moved.2.getLeft? := rfl
  have hcard := card_insiders_update worker moved.2.getLeft? hafter
  have hcounts := hs.counts
  have hlimited := hs.limited
  rw [hsearch] at hcard
  -- the count and the set of insiders change together or not at all
  cases hmoves with
  | enters hknocking hroom =>
      subst hknocking
      simp only [Sum.getLeft?_inl, Option.any_some, Search.isInside, Bool.toNat_true,
        Bool.toNat_false] at hcard
      refine ⟨hs.size, ?_, hroom⟩
      show s.pool.searching + 1 = _
      omega
  | leaves found hfound =>
      subst hfound
      rw [Search.any_isInside_afterwards] at hcard
      simp only [Search.isInside, Bool.toNat_true, Bool.toNat_false] at hcard
      refine ⟨hs.size, ?_, Nat.le_trans (Nat.sub_le _ _) hlimited⟩
      show s.pool.searching - 1 = _
      omega
  | stays p' answer hsize hsearching hinside =>
      rw [hinside] at hcard
      refine ⟨hsize.trans hs.size, ?_, ?_⟩
      · show p'.searching = _
        omega
      · show p'.searching ≤ SchedulerSettings.searchers p'.size
        rw [hsize, hsearching]
        exact hlimited

/-- A call for a search does not enter it yet. -/
theorem Kept.call (hs : s.Kept) (worker : Fin workers) : (s.next (.call worker)).Kept := by
  rw [Hunt.next]
  split
  · next hsearch =>
      have hmoves : Search.arriving.Moves s.pool (s.pool, .inl (.arriving : Search τ)) :=
        .stays _ _ rfl rfl rfl
      refine hs.settle ?_ hmoves
      rw [hsearch]
      rfl
  · exact hs

/-- A step of a search keeps the count in step with the insiders. -/
theorem Kept.step (hs : s.Kept) (worker : Fin workers) (fails : Bool) (victims : List Nat) :
    (s.next (.step worker fails victims)).Kept := by
  rw [Hunt.next]
  split
  · exact hs
  · next search hsearch =>
      refine hs.settle ?_ (search.moves_step s.pool worker fails victims)
      rw [hsearch]
      rfl

/-- What the pool does otherwise concerns no searcher. -/
theorem Kept.obey (hs : s.Kept) (order : Pool.Order τ) : (s.next (.obey order)).Kept := by
  have hsearching : (s.pool.obey order).searching = s.pool.searching := s.pool.searching_obey order
  have hsize : (s.pool.obey order).size = s.pool.size := Pool.size_serve order.request
  constructor
  · exact hsize.trans hs.size
  · exact hsearching.trans hs.counts
  · show (s.pool.obey order).searching ≤ SchedulerSettings.searchers (s.pool.obey order).size
    rw [hsearching, hsize]
    exact hs.limited

/-- Every action keeps the count in step with the insiders. -/
theorem Kept.next (hs : s.Kept) (action : Action workers τ) : (s.next action).Kept := by
  cases action with
  | call worker => exact hs.call worker
  | step worker fails victims => exact hs.step worker fails victims
  | obey order => exact hs.obey order

theorem Kept.run (hs : s.Kept) (actions : List (Action workers τ)) : (s.run actions).Kept := by
  induction actions generalizing s with
  | nil => exact hs
  | cons action rest ih => exact ih (hs.next action)

/-! ### Left alone -/

theorem settle_settle (s : Hunt workers τ) (worker : Fin workers) (p : Pool τ)
    (search : Search τ) (moved : Pool τ × (Search τ ⊕ Option (τ × Nat))) :
    (s.settle worker (p, .inl search)).settle worker moved = s.settle worker moved := by
  simp [settle]

/-- A worker that goes on alone comes to its end. -/
theorem run_replicate_step {worker : Fin workers} {victims : List Nat}
    {moved : Pool τ × (Search τ ⊕ Option (τ × Nat))} {result : Pool τ × Option (τ × Nat)}
    (h : Search.ComesTo worker victims moved result) (s : Hunt workers τ) :
    ∃ steps, (s.settle worker moved).run (List.replicate steps (.step worker false victims)) =
      s.settle worker (result.1, .inr result.2) := by
  -- on the steps of the search that comes to the result
  induction h with
  | returns p found => exact ⟨0, rfl⟩
  | @goesOn p search result h ih =>
      obtain ⟨steps, hsteps⟩ := ih
      have hsearch : (s.settle worker (p, .inl search)).searches worker = some search :=
        Function.update_self ..
      have hnext : (s.settle worker (p, .inl search)).next (.step worker false victims) =
          s.settle worker (search.step p worker false victims) := by
        rw [next, hsearch]
        exact settle_settle s worker p search _
      refine ⟨steps + 1, ?_⟩
      rw [List.replicate_succ, run, List.foldl_cons, hnext]
      exact hsteps

/-- Where nobody else does anything in between, a worker that searches does what a steal in one go
does. -/
theorem steal_alone (s : Hunt workers τ) {worker : Fin workers} (hidle : s.searches worker = none)
    (victims : List Nat) :
    ∃ steps, s.run (.call worker :: List.replicate steps (.step worker false victims)) =
      { s with
        pool := (s.pool.steal worker victims).1
        history := s.history ++ [(worker, (s.pool.steal worker victims).2)] } := by
  obtain ⟨steps, hsteps⟩ :=
    run_replicate_step (Search.comesTo_steal s.pool worker victims) s
  have hcall : s.next (.call worker) = s.settle worker (s.pool, .inl .arriving) := by
    rw [next, hidle]
  refine ⟨steps, ?_⟩
  rw [run, List.foldl_cons, hcall]
  refine hsteps.trans ?_
  have hback : Function.update s.searches worker none = s.searches := by
    rw [← hidle, Function.update_eq_self]
  simp [settle, hback]

/-! ### Every run -/

/-- What holds of the count of searching workers. -/
structure IsThrottled (s : Hunt workers τ) : Prop where
  /-- It counts the workers that were let in and have not left yet. -/
  counts : s.pool.searching = s.insiders.card
  /-- It keeps to the limit. -/
  limited : s.pool.searching ≤ max 1 (workers / 2)
  /-- Nobody who leaves finds it at zero. -/
  covered : ∀ worker found, s.searches worker = some (.leaving found) → 1 ≤ s.pool.searching
  /-- It is zero where nobody searches. -/
  calm : (∀ worker, s.searches worker = none) → s.pool.searching = 0

/-- A count in step with the insiders throttles them. -/
theorem Kept.isThrottled (hs : s.Kept) : s.IsThrottled where
  counts := hs.counts
  limited := by
    have hlimited := hs.limited
    rw [Pool.searchers, hs.size, SchedulerSettings.searchers, Nat.max_comm] at hlimited
    exact hlimited
  covered worker found hleaving := hs.one_le_searching hleaving rfl
  calm hidle := by
    rw [hs.counts, Finset.card_eq_zero, insiders, Finset.filter_eq_empty_iff]
    intro worker _ hinside
    rw [hidle worker] at hinside
    exact Bool.false_ne_true hinside

/-- However the steps of all searching workers mix, with each other and with anything else that is
done in the pool, however often an exchange fails and whatever batches there are: the count is that of the workers that were
let in and have not left, it keeps to half the workers or to one, it never falls below zero, and it
is zero again when nobody searches. -/
theorem run_isThrottled (settings : SchedulerSettings) (workers : Nat) (batching : Batching τ)
    (actions : List (Action workers τ)) :
    ((opening settings workers batching).run actions).IsThrottled :=
  ((kept_opening settings workers batching).run actions).isThrottled

end Hunt

end Troupe
