import Troupe.Payload
import Troupe.Proofs.Node.Tales

/-!
# How agents leave a node

While a node runs, agents take their turns, anybody may wake them, write to them or ask them to
end, as often as he likes, and workers may take up a task at any time, also that of an agent
that has left. Whatever happens, an agent leaves the register once at most, and for good.

* `Kept.next` — what is kept of a scene by whatever happens next;
* `story_next_of_left` — nothing happens to an agent that has left;
* `isOrderly_run` — how agents leave, in every run.
-/

namespace Troupe

open Happening (Quiet Ends between)

variable {μ ε : Type}

/-- All that the agents do themselves, callbacks and destructors, anybody may do. -/
structure Host.Within (R : Node μ ε → Node μ ε → Prop) (host : Host μ ε) : Prop where
  behavior : ∀ id, (host.behavior id).Within R
  dropped : ∀ id n, R n (host.dropped id n)

theorem Host.Within.mono {R R' : Node μ ε → Node μ ε → Prop} {host : Host μ ε}
    (h : host.Within R) (hle : ∀ n n', R n n' → R' n n') : host.Within R' :=
  ⟨fun id => (h.behavior id).mono hle, fun id n => hle _ _ (h.dropped id n)⟩

/-! ## The end of a turn -/

namespace Node

variable {n : Node μ ε} {seat : Seat μ ε} (host : Host μ ε) (index : Nat) (task : Task)

/-- The task of an agent that goes on is parked or queued again. -/
theorem settleTask_going (hseat : n.seat? task.agent = some seat)
    (hphase : seat.header.phase = .running ∨ seat.header.phase = .notified) {ending : TurnEnd}
    (hgoes : ending ≠ .done) :
    ∃ (header : Header Task) (pool : Pool Task),
      (header.phase = .idle ∨ header.phase = .scheduled) ∧
      n.settleTask host index task ending =
        { n.alterSeat task.agent fun s => { s with header } with pool } := by
  -- a yield reschedules; a wait parks, unless the agent was notified meanwhile
  cases ending with
  | yield =>
      have hagain : seat.header.reschedule = ({ seat.header with phase := .scheduled }, true) := by
        rcases hphase with hphase | hphase <;> simp [Header.reschedule, hphase]
      refine ⟨{ seat.header with phase := .scheduled }, n.pool.requeue index task, .inr rfl, ?_⟩
      simp only [settleTask, hseat, hagain]
      rfl
  | wait =>
      rcases hphase with hphase | hphase
      · have hparked : seat.header.suspend task =
            ({ seat.header with phase := .idle, slot := some task }, .parked) := by
          simp [Header.suspend, hphase]
        refine ⟨{ seat.header with phase := .idle, slot := some task }, n.pool, .inl rfl, ?_⟩
        simp only [settleTask, hseat, hparked]
        rfl
      · have hreturned : seat.header.suspend task =
            ({ seat.header with phase := .scheduled, slot := none }, .returned task) := by
          simp [Header.suspend, hphase]
        refine ⟨{ seat.header with phase := .scheduled, slot := none }, n.pool.requeue index task,
          .inr rfl, ?_⟩
        simp only [settleTask, hseat, hreturned]
        rfl
  | done => exact absurd rfl hgoes

/-- An agent that has left is done, its profile is forgotten and its behaviour dropped. -/
theorem settleTask_done (hseat : n.seat? task.agent = some seat) :
    ∃ m : Node μ ε, Apart task.agent n m ∧
      m.seat? task.agent = some { seat with header := seat.header.finish.1 } ∧
      m.failures = n.failures ∧ m.metrics = n.metrics ∧
      n.settleTask host index task .done = host.dropped task.agent m := by
  let finished := n.alterSeat task.agent fun s => { s with header := seat.header.finish.1 }
  have hfinished : finished.seat? task.agent = some { seat with header := seat.header.finish.1 } :=
    seat?_alterSeat_self hseat _
  refine ⟨{ finished with profiles := finished.profiles.erase task.agent }, ?_, hfinished, rfl, rfl,
    ?_⟩
  · refine (apart_alterSeat n task.agent _).trans ⟨rfl, fun habsent => habsent, fun _ _ => rfl,
      fun _ _ => rfl, fun other hother => ?_⟩
    exact n.profiles.profiles.get?_erase_ne hother
  · simp only [settleTask, hseat]
    rfl

end Node

namespace Scene

/-! ## The log -/

/-- What is logged of one agent is added to its own story only. -/
theorem story_log (n : Node μ ε) (turns : AgentId → Option (Stint μ ε)) (s : Scene μ ε)
    (id other : AgentId) (new : List Happening) :
    (⟨n, turns, s.log ++ new.map fun happening => (id, happening)⟩ : Scene μ ε).story other =
      s.story other ++ if other = id then new else [] := by
  have hnew : (new.map fun happening => (id, happening)).filter (fun entry => entry.1 = other) =
      if other = id then new.map fun happening => (id, happening) else [] := by
    by_cases hother : other = id
    · simp [List.filter_map, Function.comp_def, hother]
    · simp [List.filter_map, Function.comp_def, hother, Ne.symm hother]
  rw [story, List.filter_append, List.map_append, hnew]
  by_cases hother : other = id
  · simp [hother, story, Function.comp_def]
  · simp [hother, story]

/-- The departures counted grow by those that are logged. -/
theorem departures_log (n : Node μ ε) (turns : AgentId → Option (Stint μ ε)) (s : Scene μ ε)
    (id : AgentId) (new : List Happening) :
    (⟨n, turns, s.log ++ new.map fun happening => (id, happening)⟩ : Scene μ ε).departures =
      s.departures + new.count .leaves := by
  simp [departures, Function.comp_def]

/-- Where a turn has ended, no step is left. -/
theorem work_ended {host : Host μ ε} {s : Scene μ ε} {id : AgentId} {t : Stint μ ε}
    {ending : TurnEnd} (hturn : s.turns id = some t)
    (hpoint : t.point = .ended ending) : s.work host id t = s := by
  -- a turn that has ended has no step left
  have hstep : (t.resident host id).step (t.pace s.node) = t.pace s.node := by
    have hended : (t.pace s.node).point = .ended ending := hpoint
    rw [Resident.step, hended]
  have hnothing : between (t.pace s.node) (t.pace s.node) = [] := by
    have hended : (t.pace s.node).point = .ended ending := hpoint
    simp only [between, hended]
    rfl
  have hsame : Function.update s.turns id (some t) = s.turns := by
    rw [← hturn, Function.update_eq_self]
  simp only [work, hstep, hnothing, List.map_nil, List.append_nil]
  show (⟨s.node, Function.update s.turns id (some t), s.log⟩ : Scene μ ε) = s
  rw [hsame]

variable [Transferable μ]

variable {host : Host μ ε} {s : Scene μ ε} {id : AgentId} {t : Stint μ ε}

/-! ## What is kept of a scene -/

/-- Every agent has its tale, and all departures are counted. -/
structure Kept (s : Scene μ ε) : Prop where
  minted : s.node.Minted
  tales : ∀ id, Tale id (s.story id) (s.node.failures.get? id) (s.node.seat? id) (s.turns id)
  counted : s.node.metrics.terminated = s.departures

/-- Something that anybody may do. -/
theorem Kept.onward (hs : s.Kept) {n : Node μ ε} (h : s.node.Onward n) :
    ({ s with node := n } : Scene μ ε).Kept := by
  refine ⟨h.minted hs.minted, fun id => ?_, h.terminated.trans hs.counted⟩
  show Tale id (s.story id) (n.failures.get? id) (n.seat? id) (s.turns id)
  rw [h.failures]
  exact (hs.tales id).onward (h.seats hs.minted id)

/-- Something that happens to one agent. -/
theorem Kept.update (hs : s.Kept) {n : Node μ ε} {turn : Option (Stint μ ε)}
    (new : List Happening) (hnear : Node.Neighbourly id s.node n)
    (htale : Tale id (s.story id ++ new) (n.failures.get? id) (n.seat? id) turn)
    (hcount : n.metrics.terminated = s.node.metrics.terminated + new.count .leaves) :
    (⟨n, Function.update s.turns id turn, s.log ++ new.map fun happening => (id, happening)⟩ :
      Scene μ ε).Kept := by
  refine ⟨hnear.minted hs.minted, fun other => ?_, ?_⟩
  · rw [story_log]
    by_cases hother : other = id
    · subst hother
      simpa using htale
    · have hplace := (hs.tales other).onward (hnear.seats hs.minted other hother)
      simpa [hother, hnear.failures other hother] using hplace
  · rw [departures_log, ← hs.counted]
    exact hcount

theorem Kept.drop (hs : s.Kept) (hhost : host.Within Node.Deals) (task : Task) :
    ({ s with node := s.node.dropTask host task } : Scene μ ε).Kept :=
  hs.onward (hhost.dropped task.agent s.node).onward

/-- A worker takes a task up. -/
theorem Kept.takeUp (hs : s.Kept) (hhost : host.Within Node.Deals) (worker : Nat) (task : Task) :
    (s.takeUp host worker task).Kept := by
  unfold Scene.takeUp
  cases hseat : s.node.seat? task.agent with
  | none => exact hs.drop hhost task
  | some seat =>
      -- only a scheduled header begins a turn; any other task is dropped
      by_cases hphase : seat.header.phase = .scheduled
      · have hbegun : seat.header.beginRun = ({ seat.header with phase := .running }, true) := by
          simp [Header.beginRun, hphase]
        simp only [hbegun]
        have htale := hs.tales task.agent
        rw [hseat] at htale
        generalize s.turns task.agent = turn at htale
        refine hs.update [.runs] (Node.Apart.neighbourly ?_) ?_ rfl
        · exact (Node.apart_alterSeat s.node task.agent _).congr rfl rfl rfl rfl
        · show Tale task.agent _ (s.node.failures.get? task.agent)
            ((s.node.alterSeat task.agent _).seat? task.agent) _
          rw [Node.seat?_alterSeat_self hseat]
          -- only an agent between two turns is scheduled
          cases htale with
          | resting _ hstory hreport hregister hown _ =>
              exact .turning _ _ (hstory.snoc rfl) hreport trivial hregister hown (.inl rfl)
          | turning _ t _ _ _ _ _ hturning => simp [hphase] at hturning
          | leaving _ t _ _ _ _ hleaving => simp [hphase] at hleaving
          | gone _ _ _ _ hgone => simp [hphase] at hgone
      · have hrefused : seat.header.beginRun = (seat.header, false) := by
          unfold Header.beginRun
          split
          · next hsame => exact absurd hsame hphase
          · rfl
        simp only [hrefused]
        have hsame : s.node.Onward (s.node.alterSeat task.agent fun s =>
            { s with header := seat.header }) := Node.onward_put hseat (.refl _ _)
        exact (hs.onward hsame).drop hhost task

/-- What is true of an agent in its turn. -/
theorem Kept.turning (hs : s.Kept) (hturn : s.turns id = some t)
    (hon : ∀ ending, t.point ≠ .ended ending) :
    ∃ seat, s.node.seat? id = some seat ∧ t.point.Fits (s.story id) seat.header.isTerminating ∧
      s.node.failures.get? id = none ∧ t.point.Within Node.Deals ∧ seat.isRegistered = true ∧
      seat.IsOwn id ∧ (seat.header.phase = .running ∨ seat.header.phase = .notified) := by
  have htale := hs.tales id
  rw [hturn] at htale
  generalize hplace : s.node.seat? id = place at htale
  cases htale with
  | turning seat t hstory hreport hwithin hregister hown hphase =>
      exact ⟨seat, rfl, hstory, hreport, hwithin, hregister, hown, hphase⟩
  | leaving seat t hstory hpoint hregister hclosed hphase => exact absurd hpoint (hon .done)

/-- An agent in its turn makes a step. -/
theorem Kept.work (hs : s.Kept) (hhost : host.Within Node.Deals) (hturn : s.turns id = some t)
    (hon : ∀ ending, t.point ≠ .ended ending) : (s.work host id t).Kept := by
  obtain ⟨seat, hseat, hstory, hreport, hwithin, hregister, hown, hphase⟩ := hs.turning hturn hon
  have hasked : (t.pace s.node).world.isTerminating id = seat.header.isTerminating := by
    simp [Stint.pace, Node.isTerminating, hseat]
  have hadvances := advances (t := t) (c := t.pace s.node) rfl (hhost.behavior id) hasked hstory
    hwithin hon
  unfold Scene.work
  dsimp only
  generalize (t.resident host id).step (t.pace s.node) = c' at hadvances
  -- the step either goes on in the turn or is the departure of the agent
  cases hadvances with
  | goesOn hnode hafter hwithin' hcount =>
      have hnode : s.node.Onward c'.world := hnode
      obtain ⟨seat', hseat', honward⟩ := hnode.seat hs.minted hseat
      refine hs.update _ (hnode.neighbourly id) ?_ ?_
      · rw [hseat', hnode.failures, hreport]
        exact .turning _ _ (hafter.asked honward.asked) rfl hwithin'
          (honward.register.trans hregister) (honward.own hown)
          (Tale.running_of_stirs hphase honward.phase)
      · rw [hcount]
        exact hnode.terminated
  | leaves n report hnode hagent hworld hpoint hends hcount =>
      have hnode : s.node.Onward n := hnode
      obtain ⟨left, hseat', honward⟩ := hnode.seat hs.minted hseat
      -- the report is kept before the agent leaves, if there is one
      have hleft : (n.keep? id report).seat? id = some left :=
        (congrArg (·.get? id) (n.keep?_seats id report)).trans hseat'
      have hnone : n.failures.get? id = none := hnode.failures ▸ hreport
      have hreported := Node.failures_keep? hnone hagent
      have hkept := (hnode.neighbourly id).trans (n.apart_keep? hagent).neighbourly
      have hcomplete := Node.apart_complete hleft (honward.own hown)
      obtain ⟨⟨last, hlast, hoff, hclosed, hstirs, hasked⟩, hfailures, hone⟩ :=
        Node.complete_seat (hkept.minted hs.minted) hleft (honward.register.trans hregister)
      refine hs.update _ ?_ ?_ ?_
      · rw [hworld]
        exact hkept.trans hcomplete.neighbourly
      · rw [hworld, hlast, hfailures, hreported]
        exact .leaving _ _ (hends.asked fun h => hasked (honward.asked h)) hpoint hoff hclosed
          (Tale.running_of_stirs (Tale.running_of_stirs hphase honward.phase) hstirs)
      · rw [hworld, hone, Node.keep?_metrics, hcount, hnode.terminated]

/-- When the turn of an agent has ended, its task is put away, and dropped if it has left. -/
theorem Kept.settles (hs : s.Kept) (host : Host μ ε) {ending : TurnEnd}
    (hturn : s.turns id = some t) (hpoint : t.point = .ended ending) :
    ∃ n, Node.Apart id s.node n ∧ n.metrics.terminated = s.node.metrics.terminated ∧
      Tale id (s.story id) (n.failures.get? id) (n.seat? id) (none : Option (Stint μ ε)) ∧
      ((s.putDown host id t ending).node = n ∨
        (s.putDown host id t ending).node = host.dropped id n) := by
  have htale := hs.tales id
  rw [hturn] at htale
  generalize hplace : s.node.seat? id = place at htale
  let n := s.node.recordTurn t.worker id t.started ending t.books.received
  have hbooked : Node.Apart id s.node n :=
    Node.apart_recordTurn s.node t.worker id t.started ending t.books.received
  -- the turn put down is one that goes on, or the last one of an agent that left
  cases htale with
  | turning seat _ hstory hreport hwithin hregister hown hphase =>
      rw [hpoint] at hstory
      have hgoes : ending ≠ .done := by
        rintro rfl
        exact hstory
      have hquiet : Quiet (s.story id) := by
        cases ending with
        | done => exact absurd rfl hgoes
        | _ => exact hstory
      have hseat : n.seat? id = some seat := hplace
      obtain ⟨header, pool, hrests, hsettled⟩ := Node.settleTask_going host t.worker
        ⟨id, t.restarts⟩ hseat hphase hgoes
      let rested : Node μ ε := { n.alterSeat id fun s => { s with header } with pool }
      have hrested : rested.seat? id = some { seat with header } :=
        Node.seat?_alterSeat_self hseat _
      refine ⟨rested, hbooked.trans ?_, rfl, ?_, .inl hsettled⟩
      · exact (Node.apart_alterSeat n id fun s => { s with header }).congr rfl rfl rfl rfl
      · rw [hrested]
        exact .resting _ hquiet hreport hregister hown hrests
  | leaving seat _ hstory hdone hregister hclosed hphase =>
      obtain rfl : ending = .done := Point.ended.inj (hpoint.symm.trans hdone)
      have hseat : n.seat? id = some seat := hplace
      obtain ⟨m, hapart, hm, hfailures, hmetrics, hsettled⟩ := Node.settleTask_done host t.worker
        ⟨id, t.restarts⟩ hseat
      have hcount : m.metrics.terminated = n.metrics.terminated := by rw [hmetrics]
      refine ⟨m, hbooked.trans hapart, hcount, ?_, .inr hsettled⟩
      rw [hm, hfailures]
      exact .gone _ hstory hregister hclosed rfl

/-- The worker of an agent whose turn has ended puts its task away. -/
theorem Kept.putDown (hs : s.Kept) (hhost : host.Within Node.Deals) {ending : TurnEnd}
    (hturn : s.turns id = some t) (hpoint : t.point = .ended ending) :
    (s.putDown host id t ending).Kept := by
  obtain ⟨n, hapart, hcount, htale, hafter⟩ := hs.settles host hturn hpoint
  have hput :
      ({ s with node := n, turns := Function.update s.turns id none } : Scene μ ε).Kept := by
    have hkept : (⟨n, Function.update s.turns id none,
        s.log ++ ([] : List Happening).map fun happening => (id, happening)⟩ : Scene μ ε).Kept :=
      hs.update [] hapart.neighbourly (by simpa using htale) hcount
    simpa using hkept
  have hscene : s.putDown host id t ending =
      { s with
        node := (s.putDown host id t ending).node
        turns := Function.update s.turns id none } := rfl
  rw [hscene]
  -- dropping the task afterwards is a dealing like any other
  rcases hafter with hsame | hdropped
  · rw [hsame]
    exact hput
  · rw [hdropped]
    exact hput.onward (hhost.dropped id n).onward

/-- Whatever happens next. -/
theorem Kept.next (hs : s.Kept) (hhost : host.Within Node.Deals) (action : Action μ ε) :
    (s.next host action).Kept := by
  cases action with
  | deal d => exact hs.onward (Node.onward_deal s.node d)
  | takeUp worker task => exact hs.takeUp hhost worker task
  | work id =>
      simp only [Scene.next]
      cases hturn : s.turns id with
      | none => exact hs
      | some t =>
          dsimp only
          -- a worker that works on an ended turn does nothing
          by_cases hon : ∀ ending, t.point ≠ .ended ending
          · exact hs.work hhost hturn hon
          · obtain ⟨ending, hpoint⟩ := not_forall_not.mp hon
            rw [work_ended hturn hpoint]
            exact hs
  | putDown id =>
      simp only [Scene.next]
      split
      · exact hs
      · next t hturn =>
          split
          · next ending hpoint => exact hs.putDown hhost hturn hpoint
          · exact hs

/-- A whole run keeps every agent's tale. -/
theorem Kept.run (hs : s.Kept) (hhost : host.Within Node.Deals) (actions : List (Action μ ε)) :
    (s.run host actions).Kept := by
  induction actions generalizing s with
  | nil => exact hs
  | cons action rest ih => exact ih (hs.next hhost action)

/-- A node that has just started has no agents. -/
theorem kept_opened (settings : Settings) (policy : Policy) (workers : Nat) (now : Instant)
    (app : ε) (batching : Batching Task) :
    (opened (Node.ofSettings settings policy workers now app batching : Node μ ε).start.1).Kept :=
  ⟨fun _ _ => rfl, fun _ => .unborn rfl rfl, rfl⟩

/-! ## Agents that have left -/

/-- What is true of an agent that has left. -/
structure HasLeft (s : Scene μ ε) (id : AgentId) (seat : Seat μ ε) : Prop where
  register : seat.isRegistered = false
  closed : seat.mailbox.isClosed = true
  /-- No wake queues its task, and no worker may run it. -/
  phase : seat.header.phase ≠ .idle ∧ seat.header.phase ≠ .scheduled
  /-- No callback of it is in progress. -/
  ended : ∀ t, s.turns id = some t → t.point = .ended .done

/-- An agent whose story holds a departure has left, and no turn of it goes on. -/
theorem Kept.hasLeft (hs : s.Kept) (hleft : (s.story id).count .leaves = 1) :
    ∃ seat, s.node.seat? id = some seat ∧ s.HasLeft id seat := by
  have htale := hs.tales id
  generalize hplace : s.node.seat? id = place at htale
  generalize hturn : s.turns id = turn at htale
  -- the story of an agent that is still there has no departure in it
  cases htale with
  | unborn hstory hreport => simp [hstory] at hleft
  | resting seat hstory hreport hregister hown hphase => simp [hstory.goesOn] at hleft
  | turning seat t hstory hreport hwithin hregister hown hphase =>
      simp [hstory.lives.count_leaves] at hleft
  | leaving seat t hstory hpoint hregister hclosed hphase =>
      refine ⟨seat, rfl, hregister, hclosed, ?_, fun t' ht' => ?_⟩
      · rcases hphase with hphase | hphase <;> simp [hphase]
      · obtain rfl := Option.some.inj (hturn.symm.trans ht')
        exact hpoint
  | gone seat hstory hregister hclosed hphase =>
      refine ⟨seat, rfl, hregister, hclosed, by simp [hphase], fun t' ht' => ?_⟩
      rw [hturn] at ht'
      cases ht'

/-- Nothing happens to an agent that has left. -/
theorem story_next_of_left (host : Host μ ε) (hs : s.Kept)
    (hleft : (s.story id).count .leaves = 1) (action : Action μ ε) :
    (s.next host action).story id = s.story id := by
  obtain ⟨seat, hseat, hgone⟩ := hs.hasLeft hleft
  -- only the agent's own turns write its story, and it gets no turn any more
  cases action with
  | deal d => rfl
  | takeUp worker task =>
      simp only [Scene.next, Scene.takeUp]
      by_cases hsame : task.agent = id
      · have hrefused : seat.header.beginRun.2 = false := by
          unfold Header.beginRun
          split
          · next hdue => exact absurd hdue hgone.phase.2
          · rfl
        rw [hsame, hseat]
        dsimp only
        rw [hrefused]
        rfl
      · split
        · rfl
        · split
          · exact (story_log _ _ s task.agent id [.runs]).trans (by simp [Ne.symm hsame])
          · rfl
  | work other =>
      simp only [Scene.next]
      split
      · rfl
      · next t hturn =>
          by_cases hsame : id = other
          · subst hsame
            rw [work_ended hturn (hgone.ended t hturn)]
          · exact (story_log _ _ s other id _).trans (by simp [hsame])
  | putDown other =>
      simp only [Scene.next]
      split
      · rfl
      · split <;> rfl

/-- Nothing is added to the story of an agent that left. -/
theorem story_run_of_left (hs : s.Kept) (hhost : host.Within Node.Deals)
    (hleft : (s.story id).count .leaves = 1) (actions : List (Action μ ε)) :
    (s.run host actions).story id = s.story id := by
  induction actions generalizing s with
  | nil => rfl
  | cons action rest ih =>
      have hnext := story_next_of_left host hs hleft action
      exact (ih (hs.next hhost action) (by rw [hnext, hleft])).trans hnext

/-! ## How agents leave -/

/-- How the agents of a scene leave its node, and what becomes of the others. -/
structure IsOrderly (host : Host μ ε) (s : Scene μ ε) : Prop where
  minted : s.node.Minted
  once : ∀ id, (s.story id).count .leaves ≤ 1
  /-- An agent is off the register exactly if it has left. -/
  register : ∀ id seat, s.node.seat? id = some seat →
    (seat.isRegistered = false ↔ (s.story id).count .leaves = 1)
  /-- The node counts one for each that has left. -/
  counted : s.node.metrics.terminated = s.departures
  lastWord : ∀ id, (s.story id).count .speaks ≤ 1
  /-- The last word is for agents that were asked to end, have not answered that they are done
  and were not stopped by a failure. -/
  spoken : ∀ id, (s.story id).count .speaks = 1 → s.node.isTerminating id = true ∧
    (s.story id).count (.answers (.ok .done)) = 0 ∧ s.node.failures.get? id = none
  /-- Whatever happens later, nothing happens to an agent that has left. -/
  final : ∀ id, (s.story id).count .leaves = 1 → ∀ actions, let s' := s.run host actions
    s'.story id = s.story id ∧ ∃ seat, s'.node.seat? id = some seat ∧ s'.HasLeft id seat
  /-- Where an agent's own program does not act, a step of its turn spares its neighbours, also
  one by which it fails or leaves. -/
  turns : ∀ id t, s.turns id = some t → t.point.isChanging = false →
    let n' := (s.next host (.work id)).node
    Spared host id s.node n' ∧ Node.Neighbourly id s.node n'
  /-- So does the end of its turn. -/
  ends : ∀ id,
    let n' := (s.next host (.putDown id)).node
    Spared host id s.node n' ∧ Node.Neighbourly id s.node n'

/-- A step of a turn that runs no code of the agent's spares the other agents. -/
theorem Kept.spared_work (hs : s.Kept) (hhost : host.Within Node.Deals)
    (hturn : s.turns id = some t) (hchanging : t.point.isChanging = false) :
    Spared host id s.node (s.next host (.work id)).node := by
  simp only [Scene.next, hturn]
  by_cases hon : ∀ ending, t.point ≠ .ended ending
  · obtain ⟨seat, hseat, -, -, -, -, hown, -⟩ := hs.turning hturn hon
    exact spared_step (c := t.pace s.node) (hhost.behavior id) hs.minted hseat hown hon hchanging
  · obtain ⟨ending, hpoint⟩ := not_forall_not.mp hon
    rw [work_ended hturn hpoint]
    exact .apart (.refl id _)

/-- Putting a turn down spares the other agents. -/
theorem Kept.spared_putDown (hs : s.Kept) (id : AgentId) :
    Spared host id s.node (s.next host (.putDown id)).node := by
  simp only [Scene.next]
  split
  · exact .apart (.refl id _)
  · next t hturn =>
      split
      · next ending hpoint =>
          obtain ⟨n, hapart, -, -, hafter⟩ := hs.settles host hturn hpoint
          rcases hafter with hsame | hdropped
          · exact .apart (hsame ▸ hapart)
          · exact .dropped n hapart hdropped
      · exact .apart (.refl id _)

/-- What every tale keeps is that departures are orderly. -/
theorem Kept.isOrderly (hs : s.Kept) (hhost : host.Within Node.Deals) : s.IsOrderly host := by
  -- what spares the others also leaves their seats, failures and profiles
  have hspares : ∀ {id n'}, Spared host id s.node n' →
      Spared host id s.node n' ∧ Node.Neighbourly id s.node n' := fun h =>
    ⟨h, h.neighbourly (hhost.behavior _).onRestart (hhost.dropped _)⟩
  constructor
  · exact hs.minted
  · exact fun id => (hs.tales id).departure.1
  · exact fun id => (hs.tales id).departure.2.1
  · exact hs.counted
  · exact fun id => (hs.tales id).departure.2.2.1
  · intro id hspeaks
    obtain ⟨⟨seat, hseat, hasked⟩, hrest⟩ := (hs.tales id).departure.2.2.2 hspeaks
    exact ⟨by simp [Node.isTerminating, hseat, hasked], hrest⟩
  · intro id hleft actions s'
    have hstory := story_run_of_left hs hhost hleft actions
    exact ⟨hstory, (hs.run hhost actions).hasLeft (by rw [hstory, hleft])⟩
  · exact fun id t hturn hchanging => hspares (hs.spared_work hhost hturn hchanging)
  · exact fun id => hspares (hs.spared_putDown id)

/-- While a node runs, whatever its agents do and whoever wakes them, writes to them or asks them
to end, and whichever worker takes up which task when: every agent leaves once at most, and for
good. It is counted, it is given a last word only if it was asked to end and has not ended of
itself or by a failure, and its neighbours are as they were. -/
theorem isOrderly_run (host : Host μ ε) (hhost : host.Within Node.Deals) (settings : Settings)
    (policy : Policy) (workers : Nat) (now : Instant) (app : ε) (batching : Batching Task)
    (actions : List (Action μ ε)) :
    ((opened (Node.ofSettings settings policy workers now app batching).start.1).run host
      actions).IsOrderly host :=
  ((kept_opened settings policy workers now app batching).run hhost actions).isOrderly hhost

/-- One agent is done at once, one fails and cannot be started again, and the others wait. -/
def trio : Host Payload Unit where
  behavior id :=
    { resume := .answer
        (if id = ⟨1⟩ then .ok .done else if id = ⟨2⟩ then .error "lost" else .ok .wait)
      onStop := .answer (.ok ())
      onRestart := fun n => (n, .error "still lost") }
  dropped _ n := n

theorem within_trio : trio.Within Node.Deals :=
  ⟨fun _ => ⟨trivial, trivial, fun _ => .refl⟩, fun _ _ => .refl⟩

/-- A worker takes up the task of an agent that has not been started again, and the agent makes
so many steps. -/
def turnOf (id : AgentId) (steps : Nat) : List (Action Payload Unit) :=
  .takeUp 0 ⟨id, 0⟩ :: List.replicate steps (.work id)

/-- The third is asked to end when it has said that it waits. When all have left, the first is
asked to end, woken and taken up again, which comes to nothing. -/
theorem isOrderly_trio :
    let actions := List.replicate 3 (.deal (.spawn {})) ++ turnOf ⟨1⟩ 3 ++ turnOf ⟨2⟩ 3 ++
      turnOf ⟨3⟩ 2 ++ [.deal (.tell ⟨3⟩), .work ⟨3⟩, .work ⟨3⟩, .putDown ⟨1⟩, .putDown ⟨2⟩,
        .putDown ⟨3⟩, .deal (.tell ⟨1⟩), .deal (.wake ⟨1⟩)] ++ turnOf ⟨1⟩ 3
    let s := (opened (Node.ofSettings {} (.limited 1) 1 ⟨0⟩ ()).start.1).run trio actions
    s.IsOrderly trio ∧
      s.story ⟨1⟩ = [.runs, .resumes, .answers (.ok .done), .leaves] ∧
      s.story ⟨2⟩ = [.runs, .resumes, .answers (.error "lost"), .prepares, .leaves] ∧
      s.story ⟨3⟩ = [.runs, .resumes, .answers (.ok .wait), .speaks, .leaves] ∧
      s.node.metrics.terminated = 3 := by
  intro actions s
  refine ⟨isOrderly_run trio within_trio {} (.limited 1) 1 ⟨0⟩ () .standard actions, ?_, ?_, ?_, ?_⟩
  · rfl
  · rfl
  · rfl
  · rfl

end Scene

end Troupe
