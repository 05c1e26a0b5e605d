import Troupe.Proofs.Agent.Tenure
import Troupe.Proofs.Node.Neighbours
import Troupe.Proofs.Node.Scene

/-!
# Tales of agents

Of an agent three things can be seen: its seat, the turn it may have, and what has happened to
it so far. They fit together. An agent is done by its own word, it is given its last word after
it was asked to end, or it fails and is not started again; in each case it leaves the register
by the same step, and the story that leads there has nothing of the others in it.

* `Tale` — where an agent is, with what has happened to it and what was reported of it;
* `Tale.onward` — what anybody may do to an agent does not change where it is;
* `advances` — by a step of its turn it goes on, or it leaves;
* `spared_step` — and its neighbours are as they were.
-/

namespace Troupe

variable {μ ε : Type}

/-! ## Stories -/

namespace Happening

/-- It belongs to a life that goes on. -/
def isOrdinary : Happening → Bool
  | .answers (.ok .done) | .speaks | .leaves => false
  | _ => true

/-- Nothing in a story belongs to the agent's end. -/
def Quiet (story : List Happening) : Prop := ∀ happening ∈ story, happening.isOrdinary = true

theorem quiet_nil : Quiet [] := List.forall_mem_nil _

/-- An ordinary happening keeps a story quiet. -/
theorem Quiet.snoc {story : List Happening} (h : Quiet story) {happening : Happening}
    (hnew : happening.isOrdinary = true) : Quiet (story ++ [happening]) := by
  intro other hother
  rcases List.mem_append.mp hother with hold | hlast
  · exact h other hold
  · rw [List.mem_singleton.mp hlast]
    exact hnew

/-- No quiet story has an end in it. -/
theorem Quiet.notMem {story : List Happening} (h : Quiet story) {happening : Happening}
    (hend : happening.isOrdinary = false) : happening ∉ story := by
  intro hmem
  rw [h happening hmem] at hend
  cases hend

/-- In a quiet story nobody leaves, speaks a last word or is done. -/
theorem Quiet.goesOn {story : List Happening} (h : Quiet story) :
    story.count .leaves = 0 ∧ story.count .speaks = 0 ∧ story.count (.answers (.ok .done)) = 0 := by
  refine ⟨?_, ?_, ?_⟩ <;> exact List.count_eq_zero.mpr (h.notMem rfl)

/-- A story that has not ended, of an agent that was asked to end or not. -/
inductive Lives (story : List Happening) (asked : Bool) : Prop where
  | quiet (hstory : Quiet story)
  | done (before : List Happening) (hbefore : Quiet before)
      (hstory : story = before ++ [.answers (.ok .done)])
  | spoken (before : List Happening) (hbefore : Quiet before) (hstory : story = before ++ [.speaks])
      (hasked : asked = true)

/-- Nobody has left in the story of a living agent. -/
theorem Lives.count_leaves {story : List Happening} {asked : Bool} (h : Lives story asked) :
    story.count .leaves = 0 := by
  cases h with
  | quiet hstory => exact hstory.goesOn.1
  | done before hbefore hstory => simp [hstory, hbefore.goesOn]
  | spoken before hbefore hstory hasked => simp [hstory, hbefore.goesOn]

/-- The last word is given once, to an agent that was asked to end and did not end itself. -/
theorem Lives.lastWord {story : List Happening} {asked : Bool} (h : Lives story asked) :
    story.count .speaks ≤ 1 ∧ (story.count .speaks = 1 →
      asked = true ∧ story.count (.answers (.ok .done)) = 0) := by
  cases h with
  | quiet hstory => simp [hstory.goesOn]
  | done before hbefore hstory => simp [hstory, hbefore.goesOn]
  | spoken before hbefore hstory hasked => simp [hstory, hbefore.goesOn, hasked]

/-- How a story can end, whether the agent was asked to end or not, and with which report. -/
inductive Ends (story : List Happening) (asked : Bool) : Option FailureReport → Prop where
  | done (before : List Happening) (hbefore : Quiet before)
      (hstory : story = before ++ [.answers (.ok .done), .leaves]) : Ends story asked none
  | spoken (before : List Happening) (hbefore : Quiet before)
      (hstory : story = before ++ [.speaks, .leaves]) (hasked : asked = true) :
      Ends story asked none
  | failed (before : List Happening) (hbefore : Quiet before) (hstory : story = before ++ [.leaves])
      (report : FailureReport) : Ends story asked (some report)

/-- A story that ends is not undone by a later request to end. -/
theorem Ends.asked {story : List Happening} {asked asked' : Bool} {report : Option FailureReport}
    (h : Ends story asked report) (hasked : asked = true → asked' = true) :
    Ends story asked' report := by
  cases h with
  | done before hbefore hstory => exact .done before hbefore hstory
  | spoken before hbefore hstory hwas => exact .spoken before hbefore hstory (hasked hwas)
  | failed before hbefore hstory report => exact .failed before hbefore hstory report

/-- A story that ends has one departure. -/
theorem Ends.count_leaves {story : List Happening} {asked : Bool} {report : Option FailureReport}
    (h : Ends story asked report) : story.count .leaves = 1 := by
  cases h with
  | _ before hbefore hstory => simp [hstory, hbefore.goesOn]

/-- No last word for an agent that ended itself, or was stopped by a failure. -/
theorem Ends.lastWord {story : List Happening} {asked : Bool} {report : Option FailureReport}
    (h : Ends story asked report) :
    story.count .speaks ≤ 1 ∧ (story.count .speaks = 1 →
      asked = true ∧ story.count (.answers (.ok .done)) = 0 ∧ report = none) := by
  cases h with
  | done before hbefore hstory => simp [hstory, hbefore.goesOn]
  | spoken before hbefore hstory hasked => simp [hstory, hbefore.goesOn, hasked]
  | failed before hbefore hstory report => simp [hstory, hbefore.goesOn]

end Happening

open Happening (Quiet Lives Ends between)

namespace Point

variable {σ : Type}

/-- A story fits where the agent is in its turn. -/
def Fits (story : List Happening) (asked : Bool) : Point σ μ → Prop
  | .answered _ (.ok .done) => ∃ before, Quiet before ∧ story = before ++ [.answers (.ok .done)]
  | .stopping _ => asked = true ∧ ∃ before, Quiet before ∧ story = before ++ [.speaks]
  | .ended .done => False
  | _ => Quiet story

/-- A later request to end leaves the point fitting the story. -/
theorem Fits.asked {story : List Happening} {asked asked' : Bool} {point : Point σ μ}
    (h : point.Fits story asked) (hasked : asked = true → asked' = true) :
    point.Fits story asked' := by
  unfold Fits at h ⊢
  split at h
  · exact h
  · exact ⟨hasked h.1, h.2⟩
  · exact h
  · exact h

/-- An agent in a turn whose point fits the story is alive. -/
theorem Fits.lives {story : List Happening} {asked : Bool} {point : Point σ μ}
    (h : point.Fits story asked) : Lives story asked := by
  unfold Fits at h
  split at h
  · obtain ⟨before, hbefore, hstory⟩ := h
    exact .done before hbefore hstory
  · obtain ⟨hasked, before, hbefore, hstory⟩ := h
    exact .spoken before hbefore hstory hasked
  · exact h.elim
  · exact .quiet h

/-- The agent is about to change the world by its own program. -/
def isChanging : Point σ μ → Bool
  | .running _ (.change _ _) | .stopping (.change _ _) => true
  | _ => false

end Point

/-! ## What a turn does to others -/

/-- What becomes of an agent's neighbours: nothing, but for what the agent does itself when it is
prepared for another start, or when its behaviour is dropped. -/
inductive Spared (host : Host μ ε) (id : AgentId) (n n' : Node μ ε) : Prop where
  | apart (h : Node.Apart id n n')
  | prepared (m : Node μ ε) (hbefore : Node.Apart id n m)
      (hafter : Node.Apart id ((host.behavior id).onRestart m).1 n')
  | dropped (m : Node μ ε) (hbefore : Node.Apart id n m) (hlast : n' = host.dropped id m)

section Receives

variable {host : Host μ ε} {id : AgentId} {t : Stint μ ε} {c c' : Pace (Node μ ε) μ}
  {next : Option (Envelope μ) → Point (Node μ ε) μ}

/-- A receive of the turn leaves the node or takes one message from the agent's mailbox. -/
theorem receives_world (hreceives : (t.resident host id).Receives c next c') :
    c'.world = c.world ∨ c'.world = (c.world.receive id).1 := by
  cases hreceives with
  | refused hbudget => exact .inl rfl
  | handed hbudget s e hdequeue => exact .inr (congrArg Prod.fst hdequeue).symm
  | nothing hbudget s hdequeue => exact .inr (congrArg Prod.fst hdequeue).symm

/-- A receive of the turn touches the agent only. -/
theorem receives_apart (hreceives : (t.resident host id).Receives c next c') :
    Node.Apart id c.world c'.world := by
  rcases receives_world hreceives with hsame | hreceived
  · rw [hsame]
    exact .refl id _
  · rw [hreceived]
    exact Node.apart_receive c.world id

/-- A receive goes on with what it found, and leaves the story as it is. -/
theorem receives_still (hhistory : c.history = [])
    (hpoint : ∀ e, between c { c with point := next e } = [])
    (hreceives : (t.resident host id).Receives c next c') :
    c.world.Onward c'.world ∧ between c c' = [] ∧ ∃ e, c'.point = next e := by
  refine ⟨?_, ?_⟩
  · rcases receives_world hreceives with hsame | hreceived
    · rw [hsame]
      exact .refl _
    · rw [hreceived]
      exact Node.onward_receive c.world id
  · cases hreceives with
    | refused hbudget => exact ⟨hpoint none, none, rfl⟩
    | handed hbudget s e hdequeue =>
        have hsame := hpoint (some e)
        simp only [between, hhistory] at hsame ⊢
        exact ⟨by simpa [Happening.ofEvent?] using hsame, some e, rfl⟩
    | nothing hbudget s hdequeue => exact ⟨hpoint none, none, rfl⟩

end Receives

/-- Keeps the report of a failure, if there is one. -/
def Node.keep? (n : Node μ ε) (id : AgentId) : Option FailureReport → Node μ ε
  | none => n
  | some report => (Node.around id).keepReport report n

namespace Node

variable {n : Node μ ε} {id : AgentId} {report : Option FailureReport}

theorem keep?_seats (n : Node μ ε) (id : AgentId) (report : Option FailureReport) :
    (n.keep? id report).seats = n.seats := by
  cases report <;> rfl

theorem keep?_metrics (n : Node μ ε) (id : AgentId) (report : Option FailureReport) :
    (n.keep? id report).metrics = n.metrics := by
  cases report <;> rfl

/-- A report is kept under the identity of the agent it is about. -/
theorem apart_keep? (n : Node μ ε) (hagent : ∀ r ∈ report, r.agent = id) :
    Apart id n (n.keep? id report) := by
  cases report with
  | none => exact .refl id n
  | some report => exact apart_keepReport n (hagent report rfl)

/-- After it is kept the report is found, if there is one. -/
theorem failures_keep? (hnone : n.failures.get? id = none) (hagent : ∀ r ∈ report, r.agent = id) :
    (n.keep? id report).failures.get? id = report := by
  cases report with
  | none => exact hnone
  | some report =>
      obtain rfl := hagent report rfl
      exact n.failures.get?_insert_self _ _

/-- An agent stopped for its failure touches nobody else. -/
theorem apart_stopped {report : FailureReport} {seat : Seat μ ε} (hagent : report.agent = id)
    (hseat : n.seat? id = some seat) (hown : seat.IsOwn id) :
    Apart id n ((Node.around id).complete ((Node.around id).keepReport report n)) :=
  (apart_keepReport n hagent).trans (apart_complete hseat hown)

end Node

/-! ## Where an agent is -/

variable [Transferable μ]

/-- What has happened to an agent and what was reported of it, by its seat and its turn. -/
inductive Tale (id : AgentId) (story : List Happening) (report : Option FailureReport) :
    Option (Seat μ ε) → Option (Stint μ ε) → Prop where
  | unborn (hstory : story = []) (hreport : report = none) : Tale id story report none none
  | resting (seat : Seat μ ε) (hstory : Quiet story) (hreport : report = none)
      (hregister : seat.isRegistered = true) (hown : seat.IsOwn id)
      (hphase : seat.header.phase = .idle ∨ seat.header.phase = .scheduled) :
      Tale id story report (some seat) none
  | turning (seat : Seat μ ε) (t : Stint μ ε)
      (hstory : t.point.Fits story seat.header.isTerminating) (hreport : report = none)
      (hwithin : t.point.Within Node.Deals) (hregister : seat.isRegistered = true)
      (hown : seat.IsOwn id)
      (hphase : seat.header.phase = .running ∨ seat.header.phase = .notified) :
      Tale id story report (some seat) (some t)
  /-- It has left, and its worker does not know yet. -/
  | leaving (seat : Seat μ ε) (t : Stint μ ε) (hstory : Ends story seat.header.isTerminating report)
      (hpoint : t.point = .ended .done) (hregister : seat.isRegistered = false)
      (hclosed : seat.mailbox.isClosed = true)
      (hphase : seat.header.phase = .running ∨ seat.header.phase = .notified) :
      Tale id story report (some seat) (some t)
  | gone (seat : Seat μ ε) (hstory : Ends story seat.header.isTerminating report)
      (hregister : seat.isRegistered = false) (hclosed : seat.mailbox.isClosed = true)
      (hphase : seat.header.phase = .done) : Tale id story report (some seat) none

namespace Tale

variable {id : AgentId} {story : List Happening} {report : Option FailureReport}
  {place place' : Option (Seat μ ε)} {turn : Option (Stint μ ε)}

/-- A running header that is stirred is running or notified. -/
theorem running_of_stirs {p p' : Phase} (hphase : p = .running ∨ p = .notified)
    (h : p.Stirs p') : p' = .running ∨ p' = .notified := by
  rcases h with rfl | ⟨rfl, -⟩ | ⟨-, rfl⟩
  · exact hphase
  · simp at hphase
  · exact .inr rfl

/-- What anybody may do to an agent does not change where it is. -/
theorem onward (h : Tale id story report place turn) (hplace : Seat.Becomes id place place') :
    Tale id story report place' turn := by
  -- on where the agent is in its tale; nothing outside its turns brings it further
  cases h with
  | unborn hstory hreport =>
      cases hplace with
      | absent => exact .unborn hstory hreport
      | newcomer seat hregister hphase hown =>
          exact .resting seat (hstory ▸ Happening.quiet_nil) hreport hregister hown (.inr hphase)
  | resting seat hstory hreport hregister hown hphase =>
      cases hplace with
      | onward hseat =>
          refine .resting _ hstory hreport (hseat.register.trans hregister) (hseat.own hown) ?_
          rcases hseat.phase with hsame | ⟨-, hdue⟩ | ⟨hrunning, -⟩
          · exact hphase.imp hsame.trans hsame.trans
          · exact .inr hdue
          · simp [hrunning] at hphase
  | turning seat t hstory hreport hwithin hregister hown hphase =>
      cases hplace with
      | onward hseat =>
          exact .turning _ t (hstory.asked hseat.asked) hreport hwithin
            (hseat.register.trans hregister) (hseat.own hown) (running_of_stirs hphase hseat.phase)
  | leaving seat t hstory hpoint hregister hclosed hphase =>
      cases hplace with
      | onward hseat =>
          exact .leaving _ t (hstory.asked hseat.asked) hpoint (hseat.register.trans hregister)
            (hseat.closed hclosed) (running_of_stirs hphase hseat.phase)
  | gone seat hstory hregister hclosed hphase =>
      cases hplace with
      | onward hseat =>
          refine .gone _ (hstory.asked hseat.asked) (hseat.register.trans hregister)
            (hseat.closed hclosed) ?_
          exact (hseat.phase.resolve_right (by simp [hphase])).trans hphase

/-- An agent with a seat lives, or it has left. -/
theorem lives_or_ends {seat : Seat μ ε} (h : Tale id story report (some seat) turn) :
    Lives story seat.header.isTerminating ∧ report = none ∧ seat.isRegistered = true ∨
    Ends story seat.header.isTerminating report ∧ seat.isRegistered = false := by
  cases h with
  | resting _ hstory hreport hregister hown hphase =>
      exact .inl ⟨.quiet hstory, hreport, hregister⟩
  | turning _ t hstory hreport hwithin hregister hown hphase =>
      exact .inl ⟨hstory.lives, hreport, hregister⟩
  | leaving _ t hstory hpoint hregister hclosed hphase =>
      exact .inr ⟨hstory, hregister⟩
  | gone _ hstory hregister hclosed hphase =>
      exact .inr ⟨hstory, hregister⟩

/-- What a tale says of an agent's departure and of its last word. -/
theorem departure (h : Tale id story report place turn) :
    story.count .leaves ≤ 1 ∧
    (∀ seat, place = some seat → (seat.isRegistered = false ↔ story.count .leaves = 1)) ∧
    story.count .speaks ≤ 1 ∧
    (story.count .speaks = 1 → (∃ seat, place = some seat ∧ seat.header.isTerminating = true) ∧
      story.count (.answers (.ok .done)) = 0 ∧ report = none) := by
  cases place with
  | none =>
      obtain rfl : story = [] := by
        cases h with
        | unborn hstory hreport => exact hstory
      simp
  | some seat =>
      -- off the register means that the story has its one departure
      rcases h.lives_or_ends with ⟨hlives, hreport, hon⟩ | ⟨hends, hoff⟩
      · obtain ⟨hword, hspoken⟩ := hlives.lastWord
        refine ⟨by simp [hlives.count_leaves], ?_, hword, fun hspeaks => ?_⟩
        · rintro _ ⟨⟩
          simp [hlives.count_leaves, hon]
        · obtain ⟨hasked, hnot⟩ := hspoken hspeaks
          exact ⟨⟨seat, rfl, hasked⟩, hnot, hreport⟩
      · obtain ⟨hword, hspoken⟩ := hends.lastWord
        refine ⟨by simp [hends.count_leaves], ?_, hword, fun hspeaks => ?_⟩
        · rintro _ ⟨⟩
          simp [hends.count_leaves, hoff]
        · obtain ⟨hasked, hnot, hnone⟩ := hspoken hspeaks
          exact ⟨⟨seat, rfl, hasked⟩, hnot, hnone⟩

end Tale

/-! ## One step of a turn -/

/-- What a step of a turn does to the agent: it goes on, or it leaves. -/
inductive Advances (id : AgentId) (c : Pace (Node μ ε) μ) (story : List Happening)
    (asked : Bool) : Pace (Node μ ε) μ → Prop where
  | goesOn (c' : Pace (Node μ ε) μ) (hnode : c.world.Onward c'.world)
      (hstory : c'.point.Fits (story ++ between c c') asked) (hwithin : c'.point.Within Node.Deals)
      (hcount : (between c c').count .leaves = 0) : Advances id c story asked c'
  | leaves (c' : Pace (Node μ ε) μ) (n : Node μ ε) (report : Option FailureReport)
      (hnode : c.world.Onward n) (hagent : ∀ r ∈ report, r.agent = id)
      (hworld : c'.world = (Node.around id).complete (n.keep? id report))
      (hpoint : c'.point = .ended .done) (hstory : Ends (story ++ between c c') asked report)
      (hcount : (between c c').count .leaves = 1) : Advances id c story asked c'

section Step

variable {host : Host μ ε} {id : AgentId} {t : Stint μ ε} {c c' : Pace (Node μ ε) μ}
  {story : List Happening} {asked : Bool}

/-- A step that leaves the story as it is. -/
theorem Advances.of_still (hnode : c.world.Onward c'.world) (hnothing : between c c' = [])
    (hstory : c'.point.Fits story asked) (hwithin : c'.point.Within Node.Deals) :
    Advances id c story asked c' := by
  refine .goesOn c' hnode ?_ hwithin ?_
  · rw [hnothing, List.append_nil]
    exact hstory
  · rw [hnothing]
    rfl

/-- A failed resume advances the story: to another start, or to the agent's end. -/
theorem advances_fail (hhistory : c.history = []) (hbehavior : (host.behavior id).Within Node.Deals)
    {left : Nat} {reason : String} (hpoint : c.point = .answered left (.error reason))
    (hstory : Quiet story) (hfailed : (t.resident host id).Failed c reason c') :
    Advances id c story asked c' := by
  have hcounted : c.world.Onward ((Node.around id).countFailure c.world) :=
    .of_eq rfl rfl rfl rfl
  have hrestart := (hbehavior.onRestart ((Node.around id).countFailure c.world)).onward
  -- stopped by the policy, restarted, or broken by the preparation for a restart
  cases hfailed with
  | stopped hwhy =>
      refine .leaves _ _ (some ⟨id, reason, c.restarts⟩) hcounted (by simp) rfl rfl ?_ ?_
      · exact .failed story hstory (by simp [between, hpoint, hhistory, Resident.complete,
          Happening.ofEvent?]) _
      · simp [between, hpoint, hhistory, Resident.complete, Happening.ofEvent?]
  | restarted hasked haction s hs =>
      have hs : ((host.behavior id).onRestart ((Node.around id).countFailure c.world)).1 = s :=
        congrArg Prod.fst hs
      rw [hs] at hrestart
      refine .goesOn _ (hcounted.trans hrestart) ?_ trivial ?_
      · have hprepared : Quiet (story ++ [.prepares]) := hstory.snoc rfl
        simpa [between, hpoint, hhistory, Point.Fits] using hprepared
      · simp [between, hpoint, hhistory]
  | broken hasked haction s why hs =>
      -- it was prepared for another start, and leaves as if there had been none
      have hs : ((host.behavior id).onRestart ((Node.around id).countFailure c.world)).1 = s :=
        congrArg Prod.fst hs
      rw [hs] at hrestart
      refine .leaves _ _ (some ⟨id, reason, c.restarts⟩) (hcounted.trans hrestart) (by simp) rfl
        rfl ?_ ?_
      · exact .failed (story ++ [.prepares]) (hstory.snoc rfl) (by simp [between, hpoint, hhistory,
          Resident.complete, Happening.ofEvent?]) _
      · simp [between, hpoint, hhistory, Resident.complete, Happening.ofEvent?]

/-- One step of a turn. -/
theorem advances (hhistory : c.history = []) (hbehavior : (host.behavior id).Within Node.Deals)
    (hasked : c.world.isTerminating id = asked) (hstory : c.point.Fits story asked)
    (hwithin : c.point.Within Node.Deals) (hon : ∀ ending, c.point ≠ .ended ending) :
    Advances id c story asked ((t.resident host id).step c) := by
  have hmove := Resident.moves (a := t.resident host id) (c := c) (fun _ => rfl) hon
  generalize (t.resident host id).step c = c' at hmove
  -- on the move: most are still, three are told and two end the agent's story
  cases hmove with
  | spent hpoint =>
      rw [hpoint] at hstory
      exact .of_still (.refl _) (by simp [between, hpoint, hhistory]) hstory trivial
  | resumes left hpoint hmust =>
      rw [hpoint] at hstory
      refine .goesOn _ (.refl _) ?_ hbehavior.resume ?_
      · have hresumed : Quiet (story ++ [.resumes]) := Quiet.snoc hstory rfl
        simpa [between, hpoint, hhistory, Point.Fits] using hresumed
      · simp [between, hpoint, hhistory]
  | stops hend hpoint =>
      -- the last word answers a request to end, and nothing of the agent's end came before it
      have hquiet : Quiet story := by
        rcases hpoint with ⟨⟨left, hpoint⟩, -⟩ | ⟨left, hpoint⟩ <;>
          · rw [hpoint] at hstory
            exact hstory
      have hspoken : between c ((t.resident host id).stop c) = [.speaks] := by
        rcases hpoint with ⟨⟨left, hpoint⟩, -⟩ | ⟨left, hpoint⟩ <;>
          simp [between, hpoint, hhistory, Resident.stop, Happening.ofEvent?]
      refine .goesOn _ (.refl _) ?_ hbehavior.onStop ?_
      · rw [hspoken]
        exact ⟨hasked.symm.trans hend, story, hquiet, rfl⟩
      · rw [hspoken]
        rfl
  | changes left f next hpoint =>
      rw [hpoint] at hstory hwithin
      have hchanged : c.world.Deals (f c.world) := hwithin.1 c.world
      exact .of_still hchanged.onward (by simp [between, hpoint, hhistory]) hstory
        (hwithin.2 (f c.world))
  | reads left next hpoint c' hreceives =>
      rw [hpoint] at hstory hwithin
      obtain ⟨hnode, hnothing, e, hafter⟩ := receives_still hhistory
        (fun e => by simp [between, hpoint, hhistory]) hreceives
      refine .of_still hnode hnothing ?_ ?_
      · rw [hafter]
        exact hstory
      · rw [hafter]
        exact hwithin e
  | answers left answer hpoint =>
      rw [hpoint] at hstory
      have hquiet : Quiet story := hstory
      have hanswered : between c { c with point := .answered left answer } = [.answers answer] := by
        simp [between, hpoint, hhistory]
      refine .goesOn _ (.refl _) ?_ trivial ?_
      · rw [hanswered]
        -- of the answers only the last is one that ends the agent
        rcases answer with reason | _ | _ | _
        · exact hquiet.snoc rfl
        · exact hquiet.snoc rfl
        · exact hquiet.snoc rfl
        · exact ⟨story, hquiet, rfl⟩
      · rw [hanswered]
        rfl
  | yields left hpoint =>
      rw [hpoint] at hstory
      exact .of_still (.refl _) (by simp [between, hpoint, hhistory]) hstory trivial
  | fails left reason hpoint c' hfailed =>
      rw [hpoint] at hstory
      exact advances_fail hhistory hbehavior hpoint hstory hfailed
  | waits left hpoint hnot =>
      rw [hpoint] at hstory
      exact .of_still (.refl _) (by simp [between, hpoint, hhistory]) hstory trivial
  | hurries left hpoint hmust =>
      rw [hpoint] at hstory
      exact .of_still (.refl _) (by simp [between, hpoint, hhistory]) hstory trivial
  | looks left hpoint hmay =>
      rw [hpoint] at hstory
      exact .of_still (.refl _) (by simp [between, hpoint, hhistory]) hstory trivial
  | enlists left hpoint =>
      rw [hpoint] at hstory
      exact .of_still (Node.onward_register c.world id) (by simp [between, hpoint, hhistory])
        hstory trivial
  | stays left hpoint hmust =>
      rw [hpoint] at hstory
      exact .of_still (.refl _) (by simp [between, hpoint, hhistory]) hstory trivial
  | parks left hpoint hmay =>
      rw [hpoint] at hstory
      exact .of_still (.refl _) (by simp [between, hpoint, hhistory]) hstory trivial
  | adds f next hpoint =>
      rw [hpoint] at hstory hwithin
      have hchanged : c.world.Deals (f c.world) := hwithin.1 c.world
      exact .of_still hchanged.onward (by simp [between, hpoint, hhistory]) hstory
        (hwithin.2 (f c.world))
  | hears next hpoint c' hreceives =>
      rw [hpoint] at hstory hwithin
      obtain ⟨hnode, hnothing, e, hafter⟩ := receives_still hhistory
        (fun e => by simp [between, hpoint, hhistory]) hreceives
      refine .of_still hnode hnothing ?_ ?_
      · rw [hafter]
        exact hstory
      · rw [hafter]
        exact hwithin e
  | finishes hpoint =>
      have hleft : between c ((t.resident host id).complete c) = [.leaves] := by
        rcases hpoint with ⟨left, hpoint⟩ | ⟨answer, hpoint⟩ <;>
          simp [between, hpoint, hhistory, Resident.complete, Happening.ofEvent?]
      refine .leaves _ c.world none (.refl _) (by simp) rfl rfl ?_ ?_
      · -- it has answered that it is done, or it has spoken
        rw [hleft]
        rcases hpoint with ⟨left, hpoint⟩ | ⟨answer, hpoint⟩
        · rw [hpoint] at hstory
          obtain ⟨before, hbefore, rfl⟩ := hstory
          exact .done before hbefore (by simp)
        · rw [hpoint] at hstory
          obtain ⟨hasked, before, hbefore, rfl⟩ := hstory
          exact .spoken before hbefore (by simp) hasked
      · rw [hleft]
        rfl

end Step

/-! ## Neighbours -/

/-- What a sparing step may do to the others is what anybody may do. -/
theorem Spared.neighbourly {host : Host μ ε} {id : AgentId} {n n' : Node μ ε}
    (h : Spared host id n n') (hrestart : ∀ m, Node.Deals m ((host.behavior id).onRestart m).1)
    (hdrop : ∀ m, Node.Deals m (host.dropped id m)) : Node.Neighbourly id n n' := by
  cases h with
  | apart h => exact h.neighbourly
  | prepared m hbefore hafter =>
      have hprepared := (hrestart m).onward.neighbourly id
      exact (hbefore.neighbourly.trans hprepared).trans hafter.neighbourly
  | dropped m hbefore hlast =>
      rw [hlast]
      exact hbefore.neighbourly.trans ((hdrop m).onward.neighbourly id)

section Neighbours

variable {host : Host μ ε} {id : AgentId} {t : Stint μ ε} {c c' : Pace (Node μ ε) μ}
  {seat : Seat μ ε}

/-- A failed resume spares the other agents, whatever the policy makes of it. -/
theorem spared_fail {reason : String} (hbehavior : (host.behavior id).Within Node.Deals)
    (hminted : c.world.Minted) (hseat : c.world.seat? id = some seat) (hown : seat.IsOwn id)
    (hfailed : (t.resident host id).Failed c reason c') : Spared host id c.world c'.world := by
  have hcounted : Node.Apart id c.world ((Node.around id).countFailure c.world) :=
    .of_eq rfl rfl rfl rfl
  have hrestart := (hbehavior.onRestart ((Node.around id).countFailure c.world)).onward
  cases hfailed with
  | stopped hwhy =>
      have hseat : ((Node.around id).countFailure c.world).seat? id = some seat := hseat
      exact .apart (hcounted.trans (Node.apart_stopped rfl hseat hown))
  | restarted hasked haction s hs =>
      have hs : ((host.behavior id).onRestart ((Node.around id).countFailure c.world)).1 = s :=
        congrArg Prod.fst hs
      exact .prepared _ hcounted (hs ▸ .refl id _)
  | broken hasked haction s why hs =>
      have hs : ((host.behavior id).onRestart ((Node.around id).countFailure c.world)).1 = s :=
        congrArg Prod.fst hs
      rw [hs] at hrestart
      have hbefore : ((Node.around id).countFailure c.world).seat? id = some seat := hseat
      obtain ⟨seat', hafter, honward⟩ := hrestart.seat hminted hbefore
      refine .prepared _ hcounted ?_
      rw [hs]
      exact Node.apart_stopped rfl hafter (honward.own hown)

/-- A step of a turn that is not the agent's own doing leaves the neighbours alone. -/
theorem spared_step (hbehavior : (host.behavior id).Within Node.Deals)
    (hminted : c.world.Minted) (hseat : c.world.seat? id = some seat) (hown : seat.IsOwn id)
    (hon : ∀ ending, c.point ≠ .ended ending) (hchanging : c.point.isChanging = false) :
    Spared host id c.world ((t.resident host id).step c).world := by
  have hmove := Resident.moves (a := t.resident host id) (c := c) (fun _ => rfl) hon
  generalize (t.resident host id).step c = c' at hmove
  -- only the two moves that run the agent's code are excluded
  cases hmove with
  | changes left f next hpoint =>
      rw [hpoint] at hchanging
      cases hchanging
  | adds f next hpoint =>
      rw [hpoint] at hchanging
      cases hchanging
  | reads left next hpoint c' hreceives => exact .apart (receives_apart hreceives)
  | hears next hpoint c' hreceives => exact .apart (receives_apart hreceives)
  | fails left reason hpoint c' hfailed =>
      exact spared_fail hbehavior hminted hseat hown hfailed
  | enlists left hpoint => exact .apart (Node.apart_alterSeat _ id _)
  | finishes hpoint => exact .apart (Node.apart_complete hseat hown)
  | _ => exact .apart (.refl id _)

end Neighbours

end Troupe
