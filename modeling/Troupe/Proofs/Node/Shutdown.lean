import Troupe.Proofs.Node.House

/-!
# Nobody is left behind, unless he came late

The stop of a node walks through its register three times: to ask everybody to end, to see who
is left, and to clear it. Who was on the register at the first walk is gone in the end, one way
or the other. But a spawn looks only once whether the node runs, and may go on long after. Its
agent can come to a part of the register that the stop has passed already, and what becomes of
it then depends on how often.

* `Tenant.Kept` — what the stop has done for an agent, by where the stop is;
* `Kept.next` — each step of the stop, of a spawn, of an agent and of others keeps to that;
* `isEmptied_iff_no_latecomer` — the stop leaves nothing behind exactly if nobody came late, or
  whoever did was asked to end by somebody else or ended of himself, and came before the stop
  saw who is left.
-/

namespace Troupe

open Header.Traffic (replace mem_replace mem_replace_some mem_replace_of_ne)

open Office (Mild Civil)

variable {μ ε : Type}

/-! ## What the stop has done for an agent -/

namespace StopCall

/-- Whom the stop has still to ask to end, among those it has seen. -/
def listed : StopCall → List Nat
  | listing _ seen => seen
  | asking left _ => left
  | _ => []

/-- Whom the stop has still to end, among those it has seen to be left. -/
def collected : StopCall → List Nat
  | collecting _ seen => seen
  | clearing _ left => left
  | finishing left _ => left
  | _ => []

/-- The first walk has passed the parts before the one it is at. -/
theorem passed_listing (part walked : Nat) (seen : List Nat) :
    part < walked ∧ (listing walked seen).passed part = 1 ∨
      walked ≤ part ∧ (listing walked seen).passed part = 0 := by
  simp only [passed]
  split <;> omega

/-- The second walk has passed the parts before the one it is at. -/
theorem passed_collecting (part walked : Nat) (seen : List Nat) :
    part < walked ∧ (collecting walked seen).passed part = 2 ∨
      walked ≤ part ∧ (collecting walked seen).passed part = 1 := by
  simp only [passed]
  split <;> omega

/-- The third walk has passed the parts before the one it is at. -/
theorem passed_clearing (part walked : Nat) (left : List Nat) :
    part < walked ∧ (clearing walked left).passed part = 3 ∨
      walked ≤ part ∧ (clearing walked left).passed part = 2 := by
  simp only [passed]
  split <;> omega

/-- The workers have come home before the second walk through the register. -/
theorem isJoined_of_passed {stop : StopCall} {part : Nat} (h : 2 ≤ stop.passed part) :
    stop.isJoined = true := by
  cases stop with
  | waiting | asking _ _ | draining | joining => simp [passed] at h
  | listing walked seen =>
      have hcases := passed_listing part walked seen
      omega
  | collecting _ _ | clearing _ _ | finishing _ _ | stopped => rfl

/-- After a step of asking, the agents still to be asked are those before, or one fewer. -/
theorem asked_cases (index : Nat) (rest : List Nat) (next : Option AskCall) :
    ∃ left after, asked index rest next = asking left after ∧
      (∀ other ∈ left, other ∈ index :: rest) ∧ (∀ other ∈ rest, other ∈ left) ∧
      ∀ other, other ≠ index → ∀ rest', left = other :: rest' → after.isEarly = true := by
  cases next with
  | none =>
      exact ⟨rest, .looking, rfl, fun _ => List.mem_cons_of_mem _, fun _ => id, fun _ _ _ _ => rfl⟩
  | some after =>
      refine ⟨index :: rest, after, rfl, fun _ => id, fun _ => List.mem_cons_of_mem _, ?_⟩
      exact fun other hne rest' h => absurd (List.cons.inj h).1.symm hne

/-- After a step of finishing, the agents still to be finished are those before, or one fewer. -/
theorem finished_cases (index : Nat) (rest : List Nat) (next : Option Header.FinishCall) :
    ∃ left after, finished index rest next = finishing left after ∧
      (∀ other ∈ left, other ∈ index :: rest) ∧
      (left = rest ∧ after = .storing ∨ left = index :: rest) := by
  cases next with
  | none => exact ⟨rest, .storing, rfl, fun _ => List.mem_cons_of_mem _, .inl ⟨rfl, rfl⟩⟩
  | some after => exact ⟨index :: rest, after, rfl, fun _ => id, .inr rfl⟩

end StopCall

namespace Tenant

def isAsked (t : Tenant μ ε) : Bool := t.office.isAsked

/-- The agent has come to its end of itself. -/
def IsGone (t : Tenant μ ε) : Prop := t.tenure.IsGone

/-- What the stop has done for an agent whose place is in this part of the register. -/
structure Kept (stop : StopCall) (part index : Nat) (t : Tenant μ ε) : Prop where
  sound : t.tenure.Sound
  missed : t.missed ≤ stop.passed part
  away : stop.isJoined = true → t.tenure.runner = .away
  /-- Who is not on the register has left it, or it was cleared. -/
  struck : t.office.isRegistered = false → t.IsGone ∨ stop.passed part = 3
  cleared : stop.passed part = 3 → t.missed ≤ 2 → t.office.isRegistered = false
  leftover : t.missed = 3 → t.office.isRegistered = true
  listed : t.missed = 0 → 1 ≤ stop.passed part →
    t.isAsked = true ∨ t.IsGone ∨ index ∈ stop.listed
  asking : ∀ rest call, stop = .asking (index :: rest) call →
    call.isEarly = true ∨ t.isAsked = true
  unheeded : t.office.IsUnheeded → ∃ rest, stop = .asking (index :: rest) (.closing .flagging)
  collected : t.missed ≤ 1 → 2 ≤ stop.passed part →
    t.office.phase = .done ∨ index ∈ stop.collected
  finishing : ∀ rest, stop = .finishing (index :: rest) .taking → t.office.phase = .done
  /-- Who comes after the second walk never has a turn, and is not ended. -/
  late : 2 ≤ t.missed → t.office.phase = .scheduled ∧ ¬ t.IsGone ∧ index ∉ stop.collected

variable {stop stop' : StopCall} {part index : Nat} {t t' : Tenant μ ε}

/-- The stop goes on, and this agent has no part in it. -/
theorem Kept.turns (hs : t.Kept stop part index) (hpassed : stop'.passed part = stop.passed part)
    (haway : stop'.isJoined = true → t.tenure.runner = .away)
    (hlisted : index ∈ stop.listed → index ∈ stop'.listed)
    (hcollected : index ∈ stop'.collected ↔ index ∈ stop.collected)
    (hnot : ∀ rest, stop ≠ .asking (index :: rest) (.closing .flagging))
    (hasking : ∀ rest call, stop' = .asking (index :: rest) call → call.isEarly = true)
    (hfinishing : ∀ rest, stop' ≠ .finishing (index :: rest) .taking) :
    t.Kept stop' part index := by
  constructor
  · exact hs.sound
  · rw [hpassed]
    exact hs.missed
  · exact haway
  · rw [hpassed]
    exact hs.struck
  · rw [hpassed]
    exact hs.cleared
  · exact hs.leftover
  · rw [hpassed]
    exact fun hintime hpast => (hs.listed hintime hpast).imp id (Or.imp id hlisted)
  · exact fun rest call hstop => .inl (hasking rest call hstop)
  · intro hunheeded
    obtain ⟨rest, hstop⟩ := hs.unheeded hunheeded
    exact absurd hstop (hnot rest)
  · rw [hpassed, hcollected]
    exact hs.collected
  · exact fun rest hstop => absurd hstop (hfinishing rest)
  · rw [hcollected]
    exact hs.late

/-- The agent or somebody else makes a step. -/
theorem Kept.goes (hs : t.Kept stop part index) (hmissed : t'.missed = t.missed)
    (hsound : t'.tenure.Sound) (hgoes : t.tenure.Goes t'.tenure)
    (hstill : stop.isJoined = true → t'.tenure.runner = .away ∧ (t'.IsGone → t.IsGone) ∧
      (t.office.phase = .scheduled ∨ t.office.phase = .done → t'.office.phase = t.office.phase)) :
    t'.Kept stop part index := by
  -- who missed two walks came when the workers were home, and has nobody who would run it
  have hjoined : 2 ≤ t.missed → stop.isJoined = true := fun hlate =>
    StopCall.isJoined_of_passed (hlate.trans hs.missed)
  constructor
  · exact hsound
  · rw [hmissed]
    exact hs.missed
  · exact fun h => (hstill h).1
  -- what the agent's own step did to the register it did by leaving
  · intro hstruck
    rcases hgoes.struck with hsame | hgone
    · exact (hs.struck (hsame.symm.trans hstruck)).imp hgoes.gone id
    · exact .inl hgone
  · intro hpassed hintime
    rcases hgoes.struck with hsame | hgone
    · exact hsame.trans (hs.cleared hpassed (hmissed ▸ hintime))
    · exact hsound.struck hgone
  · intro hleft
    rw [hmissed] at hleft
    rcases hgoes.struck with hsame | hgone
    · exact hsame.trans (hs.leftover hleft)
    · have hlate : 2 ≤ t.missed := by omega
      exact absurd ((hstill (hjoined hlate)).2.1 hgone) (hs.late hlate).2.1
  · intro hintime hpast
    rw [hmissed] at hintime
    exact (hs.listed hintime hpast).imp hgoes.asked (Or.imp hgoes.gone id)
  · exact fun rest call hstop => (hs.asking rest call hstop).imp id hgoes.asked
  · exact fun hunheeded => hs.unheeded (hgoes.unheeded hunheeded)
  · intro hintime hpast
    rw [hmissed] at hintime
    refine (hs.collected hintime hpast).imp (fun hdone => ?_) id
    exact ((hstill (StopCall.isJoined_of_passed hpast)).2.2 (.inr hdone)).trans hdone
  · intro rest hstop
    have hdone := hs.finishing rest hstop
    exact ((hstill (hstop ▸ rfl)).2.2 (.inr hdone)).trans hdone
  · intro hlate
    rw [hmissed] at hlate
    obtain ⟨hscheduled, hnot, hspared⟩ := hs.late hlate
    obtain ⟨-, hback, hphase⟩ := hstill (hjoined hlate)
    exact ⟨(hphase (.inl hscheduled)).trans hscheduled, hnot ∘ hback, hspared⟩

/-- What anybody may do. -/
theorem Kept.alter (hs : t.Kept stop part index) {f : Office μ ε → Office μ ε}
    (h : Civil t.office (f t.office)) : (t.alter f).Kept stop part index :=
  hs.goes rfl (hs.sound.alter h.toMild h.shut) (Tenure.goes_alter h) fun hjoined =>
    ⟨h.runner.trans (hs.away hjoined), id, h.phase hs.sound.isUp⟩

/-- A worker takes the agent's task out of a run queue. -/
theorem Kept.pick (hs : t.Kept stop part index) (hnot : stop.isJoined = false) :
    (t.alter (·.relay .pick)).Kept stop part index := by
  obtain ⟨hsound, hgoes⟩ := hs.sound.pick
  exact hs.goes rfl hsound hgoes fun hjoined => nomatch hnot.symm.trans hjoined

/-- A worker that has the agent's task makes a step. -/
theorem Kept.work (hs : t.Kept stop part index) (plan : Plan) :
    ({ t with tenure := t.tenure.work (t.resident plan index) } : Tenant μ ε).Kept
      stop part index := by
  obtain ⟨hsound, hgoes⟩ := hs.sound.work t.isCivil plan.policy ⟨index⟩ plan.quantum
  refine hs.goes rfl hsound hgoes fun hjoined => ?_
  have haway := hs.away hjoined
  have hsame : t.tenure.work (t.resident plan index) = t.tenure := Tenure.work_away _ haway
  rw [hsame]
  exact ⟨haway, id, fun _ => rfl⟩

/-! ## Walks -/

/-- The stop has seen a part of the register, to ask who is on it to end. -/
theorem Kept.listing {walked : Nat} {seen more : List Nat}
    (hs : t.Kept (.listing walked seen) part index)
    (hmore : part = walked → t.office.isRegistered = true → index ∈ more) :
    t.Kept (.listing (walked + 1) (seen ++ more)) part index := by
  have hbefore := StopCall.passed_listing part walked seen
  have hafter := StopCall.passed_listing part (walked + 1) (seen ++ more)
  have hmissed := hs.missed
  have hgone : t.office.isRegistered = false → t.IsGone := fun h =>
    (hs.struck h).resolve_right (by omega)
  constructor
  · exact hs.sound
  · omega
  · exact nofun
  · exact fun h => .inl (hgone h)
  · exact fun h => absurd h (by omega)
  · exact hs.leftover
  · intro hintime hpast
    show _ ∨ _ ∨ index ∈ seen ++ more
    rw [List.mem_append]
    -- the agent's part is the one just seen, or it was seen before
    by_cases hhere : part = walked
    · cases hregistered : t.office.isRegistered with
      | true => exact .inr (.inr (.inr (hmore hhere hregistered)))
      | false => exact .inr (.inl (hgone hregistered))
    · exact (hs.listed hintime (by omega)).imp id (Or.imp id .inl)
  · exact nofun
  · intro hunheeded
    obtain ⟨rest, hstop⟩ := hs.unheeded hunheeded
    cases hstop
  · exact fun _ hpast => absurd hpast (by omega)
  · exact nofun
  · exact fun hlate => absurd hlate (by omega)

/-- The stop has seen a part of the register, to see who is left. -/
theorem Kept.collecting {walked : Nat} {seen more : List Nat}
    (hs : t.Kept (.collecting walked seen) part index)
    (hmore : index ∈ more ↔ part = walked ∧ t.office.isRegistered = true) :
    t.Kept (.collecting (walked + 1) (seen ++ more)) part index := by
  have hbefore := StopCall.passed_collecting part walked seen
  have hafter := StopCall.passed_collecting part (walked + 1) (seen ++ more)
  have hmissed := hs.missed
  have haway := hs.away rfl
  have hgone : t.office.isRegistered = false → t.IsGone := fun h =>
    (hs.struck h).resolve_right (by omega)
  -- whoever the walk still finds on the register is collected, whoever it misses has left of itself
  constructor
  · exact hs.sound
  · omega
  · exact fun _ => haway
  · exact fun h => .inl (hgone h)
  · exact fun h => absurd h (by omega)
  · exact hs.leftover
  · intro hintime _
    refine (hs.listed hintime (by omega)).imp id (Or.imp id fun h => ?_)
    cases h
  · exact nofun
  · intro hunheeded
    obtain ⟨rest, hstop⟩ := hs.unheeded hunheeded
    cases hstop
  · intro hintime hpast
    show _ ∨ index ∈ seen ++ more
    rw [List.mem_append, hmore]
    by_cases hhere : part = walked
    · cases hregistered : t.office.isRegistered with
      | true => exact .inr (.inr ⟨hhere, rfl⟩)
      | false =>
          -- no worker has its task, so its last turn has been seen to
          rcases hs.sound.seen (hgone hregistered) with h | h | ⟨hdone, -⟩
          · exact nomatch haway.symm.trans h
          · exact nomatch haway.symm.trans h
          · exact .inl hdone
    · exact (hs.collected hintime (by omega)).imp id .inl
  · exact nofun
  · intro hlate
    obtain ⟨hscheduled, hnot, hspared⟩ := hs.late hlate
    refine ⟨hscheduled, hnot, fun hmem => ?_⟩
    rcases List.mem_append.mp hmem with hold | hnew
    · exact hspared hold
    · have hhere := (hmore.mp hnew).1
      omega

/-- The register is cleared where the agent is not. -/
theorem Kept.clearing {walked : Nat} {left : List Nat}
    (hs : t.Kept (.clearing walked left) part index) (hnot : part ≠ walked) :
    t.Kept (.clearing (walked + 1) left) part index := by
  have hbefore := StopCall.passed_clearing part walked left
  have hafter := StopCall.passed_clearing part (walked + 1) left
  exact hs.turns (by omega) (fun _ => hs.away rfl) id .rfl nofun nofun nofun

/-- The register is cleared where the agent is. -/
theorem Kept.strike {walked : Nat} {left : List Nat}
    (hs : t.Kept (.clearing walked left) part index) (hhere : part = walked) :
    (t.alter (·.act .strike)).Kept (.clearing (walked + 1) left) part index := by
  have hbefore := StopCall.passed_clearing part walked left
  have hafter := StopCall.passed_clearing part (walked + 1) left
  have hmissed := hs.missed
  have haway := hs.away rfl
  -- the part is struck off the register: from here on nobody of it is registered
  constructor
  · exact ⟨hs.sound.point, hs.sound.isUp, hs.sound.closed, fun _ => rfl, hs.sound.seen,
      hs.sound.shut⟩
  · exact hmissed.trans (by omega)
  · exact fun _ => haway
  · exact fun _ => .inr (by omega)
  · exact fun _ _ => rfl
  · intro hleft
    have hleft' : t.missed = 3 := hleft
    omega
  · intro hintime _
    exact hs.listed hintime (by omega)
  · exact nofun
  · intro hunheeded
    obtain ⟨rest, hstop⟩ := hs.unheeded hunheeded
    cases hstop
  · intro hintime _
    exact hs.collected hintime (by omega)
  · exact nofun
  · exact hs.late

/-! ## Requests of the stop -/

variable {rest left : List Nat}

/-- The stop has asked an agent to end, or is about to. -/
theorem Kept.asked {call after : AskCall} (hs : t.Kept (.asking (index :: rest) call) part index)
    (hlisted : (call.step t.office).1.isAsked = true ∨ t.IsGone ∨ index ∈ left)
    (hearly : after.isEarly = true ∨ (call.step t.office).1.isAsked = true)
    (hunheeded : (call.step t.office).1.IsUnheeded →
      left = index :: rest ∧ after = .closing .flagging) :
    (t.alter fun p => (call.step p).1).Kept (.asking left after) part index := by
  have hmild := call.mild t.office
  have hpassed : (StopCall.asking left after).passed part = 1 := rfl
  -- one step of asking: the agent is asked by now, or it still is to be
  constructor
  · refine hs.sound.alter (f := fun p => (call.step p).1) hmild fun hshut => ?_
    obtain rfl := AskCall.of_unasked (hs.asking rest call rfl) hshut.1
    exact hshut
  · exact hs.missed
  · exact nofun
  · exact fun hstruck => hs.struck (hmild.register.symm.trans hstruck)
  · exact nofun
  · exact fun hleft => hmild.register.trans (hs.leftover hleft)
  · exact fun _ _ => hlisted
  · intro rest' call' hstop
    obtain ⟨-, rfl⟩ := StopCall.asking.inj hstop
    exact hearly
  · intro h
    obtain ⟨rfl, rfl⟩ := hunheeded h
    exact ⟨rest, rfl⟩
  · exact fun _ hpast => absurd hpast (by omega)
  · exact nofun
  · exact fun hlate => absurd (hlate.trans hs.missed) (by simp [StopCall.passed])

/-- The stop asks an agent to end. -/
theorem Kept.ask {call : AskCall} (hs : t.Kept (.asking (index :: rest) call) part index) :
    (t.alter fun p => (call.step p).1).Kept (.asked index rest (call.step t.office).2) part
      index := by
  -- an agent that is not asked yet is still being looked up
  have hcame : (call.step t.office).1.isAsked = true ∨ call = .looking := by
    cases hasked : (call.step t.office).1.isAsked with
    | true => exact .inl rfl
    | false => exact .inr (AskCall.of_unasked (hs.asking rest call rfl) hasked)
  have hunheeded : (call.step t.office).1.IsUnheeded →
      (call.step t.office).2 = some (.closing .flagging) := by
    rintro ⟨hasked, hopen, hnone⟩
    refine (AskCall.heeds hasked hopen).resolve_right ?_
    rintro ⟨hasked', hopen', hne⟩
    rw [AskCall.asks_step] at hnone
    obtain ⟨rest', hstop⟩ := hs.unheeded ⟨hasked', hopen', hnone⟩
    exact hne (StopCall.asking.inj hstop).2
  cases hnext : (call.step t.office).2 with
  | some after =>
      refine hs.asked (.inr (.inr (List.mem_cons_self ..))) (hcame.symm.imp ?_ id) fun h => ?_
      · rintro rfl
        simp only [AskCall.step, Option.ite_none_right_eq_some, Option.some.injEq] at hnext
        exact hnext.2 ▸ rfl
      · exact ⟨rfl, Option.some.inj (hnext.symm.trans (hunheeded h))⟩
  | none =>
      refine hs.asked (hcame.imp id ?_) (.inl rfl) fun h => ?_
      · -- the stop finds the agent off the register: it has left of itself
        rintro rfl
        have hstruck : t.office.isRegistered = false := by
          simpa [AskCall.step] using hnext
        exact .inl ((hs.struck hstruck).resolve_right (by simp [StopCall.passed]))
      · cases hnext.symm.trans (hunheeded h)

/-- The stop has asked somebody else to end, or is about to. -/
theorem Kept.asked_other {other : Nat} {call after : AskCall}
    (hs : t.Kept (.asking (index :: rest) call) part other) (hne : other ≠ index)
    (hleft : other ∈ rest → other ∈ left)
    (hearly : ∀ rest', left = other :: rest' → after.isEarly = true) :
    t.Kept (.asking left after) part other := by
  refine hs.turns rfl nofun (fun hlisted => ?_) .rfl (fun rest' hstop => ?_) ?_ nofun
  · exact hleft ((List.mem_cons.mp hlisted).resolve_left hne)
  · exact hne (List.cons.inj (StopCall.asking.inj hstop).1).1.symm
  · intro rest' call' hstop
    obtain ⟨hleft', rfl⟩ := StopCall.asking.inj hstop
    exact hearly rest' hleft'

/-- The stop has ended somebody else, or is about to. -/
theorem Kept.finished_other {other : Nat} {call after : Header.FinishCall}
    (hs : t.Kept (.finishing (index :: rest) call) part other) (hne : other ≠ index)
    (hwhich : left = rest ∧ after = .storing ∨ left = index :: rest) :
    t.Kept (.finishing left after) part other := by
  refine hs.turns rfl (fun _ => hs.away rfl) id ?_ nofun nofun fun rest' hstop => ?_
  · have hiff : other ∈ left ↔ other ∈ index :: rest := by
      rcases hwhich with ⟨rfl, -⟩ | rfl
      · simp [hne]
      · exact .rfl
    exact hiff
  · obtain ⟨hleft, hafter⟩ := StopCall.finishing.inj hstop
    rcases hwhich with ⟨-, hstoring⟩ | hsame
    · exact nomatch hstoring.symm.trans hafter
    · exact hne (List.cons.inj (hsame.symm.trans hleft)).1.symm

/-- The agent is done, for the stop has ended it. -/
theorem Kept.finished {call after : Header.FinishCall} {header : Header Unit}
    (hs : t.Kept (.finishing (index :: rest) call) part index) (hdone : header.phase = .done)
    (hasked : header.isTerminating = t.isAsked) :
    (t.alter fun p => { p with traffic := { p.traffic with header } }).Kept
      (.finishing left after) part index := by
  have haway := hs.away rfl
  have hspared : ¬ 2 ≤ t.missed := fun hlate =>
    (hs.late hlate).2.2 (List.mem_cons_self ..)
  -- one step of finishing: its header is done, and nothing else is owed to it
  constructor
  · exact ⟨hs.sound.point, hs.sound.isUp, hs.sound.closed, hs.sound.struck,
      fun _ => .inr (.inr ⟨hdone, congrArg Header.Runner.isOut haway⟩),
      fun h => hs.sound.shut ⟨hasked.symm.trans h.1, h.2⟩⟩
  · exact hs.missed
  · exact fun _ => haway
  · exact hs.struck
  · exact hs.cleared
  · exact hs.leftover
  · intro hintime hpast
    refine (hs.listed hintime hpast).imp hasked.trans (Or.imp id fun h => ?_)
    cases h
  · exact nofun
  · intro h
    obtain ⟨rest', hstop⟩ := hs.unheeded ⟨hasked.symm.trans h.1, h.2⟩
    cases hstop
  · exact fun _ _ => .inl hdone
  · exact fun _ _ => hdone
  · exact fun hlate => absurd hlate hspared

/-- The stop ends an agent. -/
theorem Kept.finish {call : Header.FinishCall}
    (hs : t.Kept (.finishing (index :: rest) call) part index) :
    (t.alter fun p =>
        { p with traffic := { p.traffic with header := (call.step p.traffic.header).header } }).Kept
      (.finished index rest (call.step t.office.traffic.header).next) part index := by
  cases call with
  | storing => exact hs.finished rfl rfl
  | taking => exact hs.finished (hs.finishing rest rfl) rfl

end Tenant

namespace House

/-! ## What the stop has done for all of them -/

/-- Every agent is in the hands of the spawn that brought it in, or of whoever called that. -/
structure Handed (h : House μ ε) : Prop where
  submitting : ∀ index, .submitting index ∈ h.spawns → index < h.tenants.length
  answered : ∀ index, .ok index ∈ h.answers → index < h.tenants.length
  returned : ∀ index < h.tenants.length,
    .ok index ∈ h.answers ∨ .submitting index ∈ h.spawns

/-- What holds of a house at any time. -/
structure Kept (plan : Plan) (h : House μ ε) : Prop where
  isOpen : h.isOpen = true ↔ h.stop = .waiting
  tenants : ∀ (index : Nat) (t : Tenant μ ε), h.tenants[index]? = some t →
    t.Kept h.stop (plan.part index) index
  within : ∀ index, index ∈ h.stop.listed ∨ index ∈ h.stop.collected → index < h.tenants.length
  handed : h.Handed

variable {plan : Plan} {h h' : House μ ε}

/-- A house that has just opened owes nobody anything. -/
theorem kept_opened (plan : Plan) : (opened : House μ ε).Kept plan := by
  constructor
  · exact ⟨fun _ => rfl, fun _ => rfl⟩
  · intro index t ht
    simp [opened] at ht
  · rintro index (h | h) <;> cases h
  · exact ⟨nofun, nofun, fun index h => absurd h (Nat.not_lt_zero index)⟩

theorem mem_registered {part index : Nat} :
    index ∈ h.registered plan part ↔
      index < h.tenants.length ∧ (plan.part index).val = part ∧ h.isRegistered index = true := by
  simp [registered]

theorem isRegistered_eq {index : Nat} {t : Tenant μ ε} (ht : h.tenants[index]? = some t) :
    h.isRegistered index = t.office.isRegistered := by
  rw [isRegistered, ht]

/-- Whom the spawns have been handed to depends on the spawns and the number of agents. -/
theorem Handed.congr (hs : h.Handed) (hspawns : h'.spawns = h.spawns)
    (hanswers : h'.answers = h.answers) (hlength : h'.tenants.length = h.tenants.length) :
    h'.Handed := by
  constructor
  · rw [hlength, hspawns]
    exact hs.submitting
  · rw [hlength, hanswers]
    exact hs.answered
  · rw [hlength, hanswers, hspawns]
    exact hs.returned

/-- The stop goes on. -/
theorem Kept.of_stop (hs : h.Kept plan) {h' : House μ ε} (hspawns : h'.spawns = h.spawns)
    (hanswers : h'.answers = h.answers) (hlength : h'.tenants.length = h.tenants.length)
    (hopen : h'.isOpen = false) (hbegun : h'.stop ≠ .waiting)
    (htenants : ∀ (index : Nat) (t : Tenant μ ε), h'.tenants[index]? = some t →
      t.Kept h'.stop (plan.part index) index)
    (hwithin : ∀ index, index ∈ h'.stop.listed ∨ index ∈ h'.stop.collected →
      index < h.tenants.length) : h'.Kept plan := by
  constructor
  · rw [hopen]
    exact ⟨nofun, fun hwaiting => absurd hwaiting hbegun⟩
  · exact htenants
  · rw [hlength]
    exact hwithin
  · exact hs.handed.congr hspawns hanswers hlength

/-- Who is in the house after something has happened to one agent. -/
theorem tenants_alter {index other : Nat} {f : Tenant μ ε → Tenant μ ε} {t : Tenant μ ε}
    (ht : (h.alter index f).tenants[other]? = some t) :
    (other = index ∧ ∃ before, h.tenants[index]? = some before ∧ t = f before) ∨
      other ≠ index ∧ h.tenants[other]? = some t := by
  rw [alter, List.getElem?_modify, Option.map_eq_map, Option.map_eq_some_iff] at ht
  obtain ⟨before, hbefore, rfl⟩ := ht
  by_cases hsame : index = other
  · subst hsame
    exact .inl ⟨rfl, before, hbefore, if_pos rfl⟩
  · rw [if_neg hsame]
    exact .inr ⟨Ne.symm hsame, hbefore⟩

/-- Something happens to one agent, and the stop goes on. -/
theorem Kept.of_alter (hs : h.Kept plan) {index : Nat} {f : Tenant μ ε → Tenant μ ε}
    {stop : StopCall} (hopen : h.isOpen = false) (hbegun : stop ≠ .waiting)
    (hmine : ∀ t, h.tenants[index]? = some t → (f t).Kept stop (plan.part index) index)
    (hothers : ∀ other t, other ≠ index → h.tenants[other]? = some t →
      t.Kept stop (plan.part other) other)
    (hwithin : ∀ index, index ∈ stop.listed ∨ index ∈ stop.collected → index < h.tenants.length) :
    ({ h.alter index f with stop } : House μ ε).Kept plan := by
  refine hs.of_stop rfl rfl (List.length_modify ..) hopen hbegun (fun other t ht => ?_) hwithin
  rcases tenants_alter ht with ⟨rfl, before, hbefore, rfl⟩ | ⟨hne, hother⟩
  · exact hmine before hbefore
  · exact hothers other t hne hother

theorem Kept.isOpen_eq (hs : h.Kept plan) (hbegun : h.stop ≠ .waiting) : h.isOpen = false := by
  rw [← Bool.not_eq_true, hs.isOpen]
  exact hbegun

/-- The stop sees a part of the register, to ask who is on it to end. -/
theorem Kept.listing (hs : h.Kept plan) {part : Nat} {seen : List Nat}
    (hstop : h.stop = .listing part seen) :
    ({ h with stop := .listing (part + 1) (seen ++ h.registered plan part) } :
      House μ ε).Kept plan := by
  have htenants := hs.tenants
  have hwithin := hs.within
  rw [hstop] at htenants hwithin
  refine hs.of_stop rfl rfl rfl (hs.isOpen_eq (by simp [hstop])) nofun (fun index t ht => ?_) ?_
  · refine (htenants index t ht).listing fun hhere hregistered => mem_registered.mpr ?_
    exact ⟨(List.getElem?_eq_some_iff.mp ht).1, hhere, (isRegistered_eq ht).trans hregistered⟩
  · rintro index (hlisted | hcollected)
    · rcases List.mem_append.mp hlisted with hold | hnew
      · exact hwithin index (.inl hold)
      · exact (mem_registered.mp hnew).1
    · cases hcollected

/-- The stop sees a part of the register, to see who is left. -/
theorem Kept.collecting (hs : h.Kept plan) {part : Nat} {seen : List Nat}
    (hstop : h.stop = .collecting part seen) :
    ({ h with stop := .collecting (part + 1) (seen ++ h.registered plan part) } :
      House μ ε).Kept plan := by
  have htenants := hs.tenants
  have hwithin := hs.within
  rw [hstop] at htenants hwithin
  refine hs.of_stop rfl rfl rfl (hs.isOpen_eq (by simp [hstop])) nofun (fun index t ht => ?_) ?_
  · have hplace : h.tenants[index]? = some t := ht
    refine (htenants index t hplace).collecting ?_
    rw [mem_registered, isRegistered_eq hplace]
    exact ⟨fun h => h.2, fun h => ⟨(List.getElem?_eq_some_iff.mp hplace).1, h⟩⟩
  · rintro index (hlisted | hcollected)
    · cases hlisted
    · rcases List.mem_append.mp hcollected with hold | hnew
      · exact hwithin index (.inr hold)
      · exact (mem_registered.mp hnew).1

/-- A part of the register is cleared. -/
theorem Kept.clearing (hs : h.Kept plan) {part : Nat} {left : List Nat}
    (hstop : h.stop = .clearing part left) :
    ({ h.clear plan part with stop := .clearing (part + 1) left } : House μ ε).Kept plan := by
  have htenants := hs.tenants
  have hwithin := hs.within
  rw [hstop] at htenants hwithin
  refine hs.of_stop rfl rfl (List.length_mapIdx ..) (hs.isOpen_eq (by simp [hstop])) nofun
    (fun index t ht => ?_) hwithin
  have ht' : (h.clear plan part).tenants[index]? = some t := ht
  rw [clear, List.getElem?_mapIdx, Option.map_eq_some_iff] at ht'
  obtain ⟨before, hbefore, rfl⟩ := ht'
  split
  · next hhere => exact (htenants index before hbefore).strike hhere
  · next hnot => exact (htenants index before hbefore).clearing hnot

/-- The stop asks an agent to end. -/
theorem Kept.ask (hs : h.Kept plan) {index : Nat} {rest : List Nat} {call : AskCall}
    (hstop : h.stop = .asking (index :: rest) call) : (h.ask index rest call).Kept plan := by
  have htenants := hs.tenants
  have hwithin := hs.within
  have hopen := hs.isOpen_eq (by simp [hstop])
  rw [hstop] at htenants hwithin
  unfold House.ask
  -- the agent asked, if it is there, and all the others
  cases htenant : h.tenants[index]? with
  | none =>
      refine hs.of_stop rfl rfl rfl hopen nofun (fun other t ht => ?_) ?_
      · refine (htenants other t ht).asked_other ?_ (fun h => h) fun _ _ => rfl
        rintro rfl
        exact nomatch htenant.symm.trans ht
      · rintro other (hlisted | hcollected)
        · exact hwithin other (.inl (List.mem_cons_of_mem _ hlisted))
        · cases hcollected
  | some t =>
      obtain ⟨left, after, hnext, hleft, hkeeps, hearly⟩ :=
        StopCall.asked_cases index rest (call.step t.office).2
      have hmine := (htenants index t htenant).ask
      dsimp only
      rw [hnext] at hmine ⊢
      refine hs.of_alter hopen nofun (fun t' ht' => ?_) (fun other t' hne ht' => ?_) ?_
      · obtain rfl := Option.some.inj (htenant.symm.trans ht')
        exact hmine
      · exact (htenants other t' ht').asked_other hne (hkeeps other) (hearly other hne)
      · rintro other (hlisted | hcollected)
        · exact hwithin other (.inl (hleft other hlisted))
        · cases hcollected

/-- The stop ends an agent. -/
theorem Kept.finish (hs : h.Kept plan) {index : Nat} {rest : List Nat} {call : Header.FinishCall}
    (hstop : h.stop = .finishing (index :: rest) call) :
    (h.finish index rest call).Kept plan := by
  have htenants := hs.tenants
  have hwithin := hs.within
  have hopen := hs.isOpen_eq (by simp [hstop])
  rw [hstop] at htenants hwithin
  unfold House.finish
  -- the agent finished, if it is there, and all the others
  cases htenant : h.tenants[index]? with
  | none =>
      refine hs.of_stop rfl rfl rfl hopen nofun (fun other t ht => ?_) ?_
      · refine (htenants other t ht).finished_other ?_ (.inl ⟨rfl, rfl⟩)
        rintro rfl
        exact nomatch htenant.symm.trans ht
      · rintro other (hlisted | hcollected)
        · cases hlisted
        · exact hwithin other (.inr (List.mem_cons_of_mem _ hcollected))
  | some t =>
      obtain ⟨left, after, hnext, hleft, hwhich⟩ :=
        StopCall.finished_cases index rest (call.step t.office.traffic.header).next
      have hmine := (htenants index t htenant).finish
      dsimp only
      rw [hnext] at hmine ⊢
      refine hs.of_alter hopen nofun (fun t' ht' => ?_) (fun other t' hne ht' => ?_) ?_
      · obtain rfl := Option.some.inj (htenant.symm.trans ht')
        exact hmine
      · exact (htenants other t' ht').finished_other hne hwhich
      · rintro other (hlisted | hcollected)
        · cases hlisted
        · exact hwithin other (.inr (hleft other hcollected))

/-- A step of the stop. -/
theorem Kept.halt (hs : h.Kept plan) : (h.halt plan).Kept plan := by
  have hopen := hs.isOpen_eq
  have hpart : ∀ index, (plan.part index).val < plan.parts := fun index => (plan.part index).isLt
  have htenants := hs.tenants
  have hwithin := hs.within
  unfold House.halt
  -- on where the stop is; only the walks and the two per-agent steps touch the agents
  cases hstop : h.stop with
  | waiting =>
      rw [hstop] at htenants
      refine hs.of_stop rfl rfl rfl rfl nofun (fun index t ht => ?_) ?_
      · exact (htenants index t ht).turns rfl nofun id .rfl nofun nofun nofun
      · rintro index (h | h) <;> cases h
  | listing part seen =>
      rw [hstop] at htenants hwithin hopen
      dsimp only
      split
      · exact hs.listing hstop
      · next hend =>
        refine hs.of_stop rfl rfl rfl (hopen nofun) nofun (fun index t ht => ?_) hwithin
        refine (htenants index t ht).turns ?_ nofun id .rfl nofun ?_ nofun
        · -- all parts have been seen, that of this agent too
          have hcases := StopCall.passed_listing (plan.part index) part seen
          have hhere := hpart index
          show 1 = _
          omega
        · rintro rest call hstop'
          obtain ⟨-, rfl⟩ := StopCall.asking.inj hstop'
          rfl
  | asking left call =>
      rw [hstop] at htenants hwithin hopen
      cases left with
      | nil =>
          refine hs.of_stop rfl rfl rfl (hopen nofun) nofun (fun index t ht => ?_) ?_
          · exact (htenants index t ht).turns rfl nofun id .rfl nofun nofun nofun
          · rintro index (h | h) <;> cases h
      | cons index rest => exact hs.ask hstop
  | draining =>
      rw [hstop] at htenants hopen
      refine hs.of_stop rfl rfl rfl (hopen nofun) nofun (fun index t ht => ?_) ?_
      · exact (htenants index t ht).turns rfl nofun id .rfl nofun nofun nofun
      · rintro index (h | h) <;> cases h
  | joining =>
      rw [hstop] at htenants hopen
      dsimp only
      split
      · next haway =>
        rw [List.all_eq_true] at haway
        refine hs.of_stop rfl rfl rfl (hopen nofun) nofun (fun index t ht => ?_) ?_
        · refine (htenants index t ht).turns rfl (fun _ => ?_) id .rfl nofun nofun nofun
          exact eq_of_beq (haway t (List.mem_of_getElem? ht))
        · rintro index (h | h) <;> cases h
      · exact hs
  | collecting part seen =>
      rw [hstop] at htenants hwithin hopen
      dsimp only
      split
      · exact hs.collecting hstop
      · next hend =>
        refine hs.of_stop rfl rfl rfl (hopen nofun) nofun (fun index t ht => ?_) hwithin
        have ht' := htenants index t ht
        refine ht'.turns ?_ (fun _ => ht'.away rfl) id .rfl nofun nofun nofun
        have hbefore := StopCall.passed_collecting (plan.part index) part seen
        have hafter := StopCall.passed_clearing (plan.part index) 0 seen
        have hhere := hpart index
        show (StopCall.clearing 0 seen).passed _ = _
        omega
  | clearing part left =>
      rw [hstop] at htenants hwithin hopen
      dsimp only
      split
      · exact hs.clearing hstop
      · next hend =>
        refine hs.of_stop rfl rfl rfl (hopen nofun) nofun (fun index t ht => ?_) hwithin
        have ht' := htenants index t ht
        refine ht'.turns ?_ (fun _ => ht'.away rfl) id .rfl nofun nofun ?_
        · have hcases := StopCall.passed_clearing (plan.part index) part left
          have hhere := hpart index
          show 3 = _
          omega
        · rintro rest hstop'
          exact nomatch (StopCall.finishing.inj hstop').2
  | finishing left call =>
      rw [hstop] at htenants hwithin hopen
      cases left with
      | nil =>
          refine hs.of_stop rfl rfl rfl (hopen nofun) nofun (fun index t ht => ?_) ?_
          · have ht' := htenants index t ht
            exact ht'.turns rfl (fun _ => ht'.away rfl) id .rfl nofun nofun nofun
          · rintro index (h | h) <;> cases h
      | cons index rest => exact hs.finish hstop
  | stopped => exact hs

/-- Something happens to one agent. -/
theorem Kept.of_tenant (hs : h.Kept plan) {index : Nat} {f : Tenant μ ε → Tenant μ ε}
    (hmine : ∀ t, h.tenants[index]? = some t → t.Kept h.stop (plan.part index) index →
      (f t).Kept h.stop (plan.part index) index) : (h.alter index f).Kept plan := by
  have hlength : (h.alter index f).tenants.length = h.tenants.length := List.length_modify ..
  refine ⟨hs.isOpen, fun other t ht => ?_, ?_, hs.handed.congr rfl rfl hlength⟩
  · rcases tenants_alter ht with ⟨rfl, before, hbefore, rfl⟩ | ⟨-, hother⟩
    · exact hmine before hbefore (hs.tenants other before hbefore)
    · exact hs.tenants other t hother
  · rw [hlength]
    exact hs.within

/-- A new agent. -/
theorem Kept.newcomer (hs : h.Kept plan) (offer : Offer μ ε) (marks : Watermarks) :
    (h.newcomer plan offer marks).Kept h.stop (plan.part h.tenants.length) h.tenants.length := by
  -- it has missed just what has passed its part, so the stop owes it nothing yet
  have hmissed : (h.newcomer plan offer marks).missed =
      h.stop.passed (plan.part h.tenants.length) := rfl
  have hnew : h.tenants.length ∉ h.stop.listed ∧ h.tenants.length ∉ h.stop.collected :=
    ⟨fun hmem => Nat.lt_irrefl _ (hs.within _ (.inl hmem)),
      fun hmem => Nat.lt_irrefl _ (hs.within _ (.inr hmem))⟩
  -- everything the stop owes is owed to agents it has met
  constructor
  · refine ⟨trivial, rfl, nofun, nofun, nofun, ?_⟩
    rintro ⟨-, hshut | ⟨call, hcall, -⟩⟩
    · cases hshut
    · cases hcall
  · exact hmissed.le
  · exact fun _ => rfl
  · exact nofun
  · exact fun hpassed hintime => absurd hintime (by omega)
  · exact fun _ => rfl
  · exact fun hintime hpast => absurd hpast (by omega)
  · intro rest call hstop
    exact absurd (hstop ▸ List.mem_cons_self ..) hnew.1
  · rintro ⟨hasked, -⟩
    cases hasked
  · exact fun hintime hpast => absurd hpast (by omega)
  · intro rest hstop
    exact absurd (hstop ▸ List.mem_cons_self ..) hnew.2
  · exact fun _ => ⟨rfl, nofun, hnew.2⟩

/-- A spawn that has no agent yet goes on, or returns without one. -/
theorem Handed.of_spawn (hs : h.Handed) {index : Nat} {call : SpawnCall μ ε}
    (hcall : h.spawns[index]? = some call) (hnone : ∀ tenant, call ≠ .submitting tenant)
    (after : Option (SpawnCall μ ε)) (hafter : ∀ tenant, after ≠ some (.submitting tenant))
    (more : List (Except Fault Nat)) (hmore : ∀ tenant, .ok tenant ∉ more) :
    ({ h with spawns := replace h.spawns index after, answers := h.answers ++ more } :
      House μ ε).Handed := by
  constructor
  · intro tenant hsubmitting
    exact hs.submitting tenant ((mem_replace hsubmitting).resolve_right (hafter tenant))
  · intro tenant hanswer
    exact hs.answered tenant ((List.mem_append.mp hanswer).resolve_right (hmore tenant))
  · intro tenant hlt
    refine (hs.returned tenant hlt).imp (List.mem_append_left more) fun hsubmitting => ?_
    exact mem_replace_of_ne hcall hsubmitting (Ne.symm (hnone tenant)) _

/-- A spawn puts its agent on the register. -/
theorem Handed.enroll (hs : h.Handed) {index : Nat} {offer : Offer μ ε} {marks : Watermarks}
    (hcall : h.spawns[index]? = some (.enrolling offer marks)) (t : Tenant μ ε) :
    ({ h with
      tenants := h.tenants ++ [t]
      spawns := replace h.spawns index (some (.submitting h.tenants.length)) } :
        House μ ε).Handed := by
  have hlength : (h.tenants ++ [t]).length = h.tenants.length + 1 := by simp
  constructor
  · intro tenant hsubmitting
    rcases mem_replace hsubmitting with hold | hnew
    · exact hlength ▸ Nat.lt_succ_of_lt (hs.submitting tenant hold)
    · obtain rfl := SpawnCall.submitting.inj (Option.some.inj hnew)
      exact hlength ▸ Nat.lt_succ_self _
  · exact fun tenant hanswer => hlength ▸ Nat.lt_succ_of_lt (hs.answered tenant hanswer)
  -- an agent was either there before or is the newcomer, whose spawn is still under way
  · intro tenant hlt
    rcases Nat.lt_succ_iff_lt_or_eq.mp (hlength ▸ hlt) with hold | rfl
    · rcases hs.returned tenant hold with hanswer | hsubmitting
      · exact .inl hanswer
      · exact .inr (mem_replace_of_ne hcall hsubmitting nofun _)
    · exact .inr (mem_replace_some _ _ _)

/-- A spawn hands its agent to whoever called it. -/
theorem Handed.submit (hs : h.Handed) {index tenant : Nat}
    (hcall : h.spawns[index]? = some (.submitting tenant)) :
    ({ h with
      spawns := replace h.spawns index none
      answers := h.answers ++ [.ok tenant] } : House μ ε).Handed := by
  constructor
  · intro other hsubmitting
    exact hs.submitting other ((mem_replace hsubmitting).resolve_right nofun)
  · intro other hanswer
    rcases List.mem_append.mp hanswer with hold | hnew
    · exact hs.answered other hold
    · obtain rfl := Except.ok.inj (List.mem_singleton.mp hnew)
      exact hs.submitting other (List.mem_of_getElem? hcall)
  · intro other hlt
    -- the agent handed over is answered for now; the others' spawns are still where they were
    by_cases hsame : other = tenant
    · exact .inl (List.mem_append_right _ (List.mem_singleton.mpr (congrArg Except.ok hsame)))
    · refine (hs.returned other hlt).imp (List.mem_append_left _) fun hsubmitting => ?_
      exact mem_replace_of_ne hcall hsubmitting (fun h => hsame (SpawnCall.submitting.inj h)) _

/-- A step of a spawn. -/
theorem Kept.spawn (hs : h.Kept plan) {index : Nat} {call : SpawnCall μ ε}
    (hcall : h.spawns[index]? = some call) : (h.spawn plan index call).Kept plan := by
  -- the look may refuse, the entry brings the newcomer, the submission queues its task
  cases call with
  | looking offer =>
      have hrefused : ∀ why, ({ h with
          spawns := replace h.spawns index none
          answers := h.answers ++ [.error why] } : House μ ε).Kept plan := fun why =>
        ⟨hs.isOpen, hs.tenants, hs.within,
          hs.handed.of_spawn hcall nofun none (by simp) [.error why] (by simp)⟩
      simp only [House.spawn]
      split
      · split
        · exact hrefused _
        · next marks _ =>
          have hhanded := hs.handed.of_spawn hcall nofun (some (.enrolling offer marks)) (by simp)
            [] (by simp)
          rw [List.append_nil] at hhanded
          exact ⟨hs.isOpen, hs.tenants, hs.within, hhanded⟩
      · exact hrefused _
  | enrolling offer marks =>
      have hlength :
          (h.tenants ++ [h.newcomer plan offer marks]).length = h.tenants.length + 1 := by simp
      refine ⟨hs.isOpen, fun other t ht => ?_, fun other hother => ?_, ?_⟩
      · have ht' : (h.tenants ++ [h.newcomer plan offer marks])[other]? = some t := ht
        rcases Nat.lt_trichotomy other h.tenants.length with hold | rfl | hbeyond
        · rw [List.getElem?_append_left hold] at ht'
          exact hs.tenants other t ht'
        · rw [List.getElem?_concat_length] at ht'
          exact Option.some.inj ht' ▸ hs.newcomer offer marks
        · rw [List.getElem?_eq_none (by omega)] at ht'
          cases ht'
      · exact hlength ▸ Nat.lt_succ_of_lt (hs.within other hother)
      · exact hs.handed.enroll hcall _
  | submitting tenant =>
      have hqueued : (h.alter tenant (·.submit)).Kept plan :=
        hs.of_tenant fun t _ ht => ht.alter (.of_header rfl rfl rfl rfl rfl rfl)
      exact ⟨hqueued.isOpen, hqueued.tenants, hqueued.within, hqueued.handed.submit hcall⟩

/-! ## Runs -/

/-- Every action of the house keeps what the stop owes to each agent. -/
theorem Kept.next (hs : h.Kept plan) (action : Action μ ε) : (h.next plan action).Kept plan := by
  -- an agent's own action is settled by the lemma for it, a step of the stop by `Kept.halt`
  cases action with
  | callSpawn offer =>
      refine ⟨hs.isOpen, hs.tenants, hs.within, fun tenant hsubmitting => ?_, hs.handed.answered,
        fun tenant hlt => (hs.handed.returned tenant hlt).imp id (List.mem_append_left _)⟩
      rcases List.mem_append.mp hsubmitting with hold | hnew
      · exact hs.handed.submitting tenant hold
      · exact nomatch List.mem_singleton.mp hnew
  | spawn index =>
      simp only [House.next]
      split
      · exact hs
      · next call hcall => exact hs.spawn hcall
  | tenant index action =>
      simp only [House.next]
      split
      · next hallowed =>
        refine hs.of_tenant fun t _ ht => ?_
        cases action with
        | outside action =>
          exact ht.alter (f := fun p => p.act action) (Office.civil_act _ hallowed)
        | pick => exact ht.pick (by simpa [allows] using hallowed)
        | work => exact ht.work plan
      · exact hs
  | inform index own =>
      exact hs.of_tenant fun t _ ht => ht.alter (.of_header rfl rfl rfl rfl rfl rfl)
  | stop => exact hs.halt

/-- What the stop owes to each agent is kept along every run. -/
theorem kept_run (plan : Plan) (actions : List (Action μ ε)) :
    ((opened : House μ ε).run plan actions).Kept plan := by
  induction actions using List.reverseRecOn with
  | nil => exact kept_opened plan
  | append_singleton actions action ih =>
      rw [run, List.foldl_concat]
      exact ih.next action

/-! ## What is left -/

/-- The stop, all spawns and all requests to end have returned. -/
structure IsAtRest (h : House μ ε) : Prop where
  stop : h.stop = .stopped
  spawns : h.spawns = []
  asks : ∀ t ∈ h.tenants, t.office.asks = []

theorem isAtRest_of {h : House μ ε} (hstop : h.stop = .stopped) (hspawns : h.spawns = [])
    (hasks : h.tenants.all (fun t => t.office.asks.isEmpty) = true) : h.IsAtRest := by
  refine ⟨hstop, hspawns, fun t ht => ?_⟩
  exact List.isEmpty_iff.mp (List.all_eq_true.mp hasks t ht)

/-- Nobody is on the register, and whoever was brought in is done and takes no messages. -/
structure IsEmptied (h : House μ ε) : Prop where
  register : ∀ t ∈ h.tenants, t.office.isRegistered = false
  handles : ∀ index, .ok index ∈ h.answers → ∃ t, h.tenants[index]? = some t ∧
    t.tenure.state = .done ∧ t.office.mailbox.isClosed = true

end House

namespace Tenant

/-- What becomes of an agent, by the number of the stop's walks that it missed. -/
inductive Fate (t : Tenant μ ε) : Prop where
  | inTime (hmissed : t.missed = 0) (hregister : t.office.isRegistered = false)
      (hdone : t.tenure.state = .done) (hclosed : t.office.mailbox.isClosed = true)
  /-- The stop did not ask it to end. -/
  | unasked (hmissed : t.missed = 1) (hregister : t.office.isRegistered = false)
      (hdone : t.tenure.state = .done)
      (hclosed : t.office.mailbox.isClosed = true ↔ t.isAsked = true ∨ t.IsGone)
  /-- The stop did not see that it was left. -/
  | unseen (hmissed : t.missed = 2) (hregister : t.office.isRegistered = false)
      (hdue : t.tenure.state = .scheduled)
  | leftover (hmissed : t.missed = 3) (hregister : t.office.isRegistered = true)
      (hdue : t.tenure.state = .scheduled)

/-- The agent was on the register when the stop asked everybody to end, or it came before the
stop saw who was left, and ended of itself or was asked to by somebody else. -/
def CameInTime (t : Tenant μ ε) : Prop :=
  t.missed = 0 ∨ t.missed = 1 ∧ (t.isAsked = true ∨ t.IsGone)

/-- Of the four fates only that of an agent in time leaves it off the register, done and closed. -/
theorem Fate.cameInTime_iff {t : Tenant μ ε} (h : t.Fate) :
    t.CameInTime ↔ t.office.isRegistered = false ∧ t.tenure.state = .done ∧
      t.office.mailbox.isClosed = true := by
  cases h with
  | inTime hmissed hregister hdone hclosed => simp [CameInTime, *]
  | unasked hmissed hregister hdone hclosed => simp [CameInTime, *]
  | unseen hmissed hregister hdue => simp [CameInTime, *]
  | leftover hmissed hregister hdue => simp [CameInTime, *]

/-- What becomes of an agent when all is over. -/
theorem Kept.fate {part index : Nat} {t : Tenant μ ε} (hs : t.Kept .stopped part index)
    (hasks : t.office.asks = []) : t.Fate := by
  have hmissed : t.missed ≤ 3 := hs.missed
  have hclosed : t.office.mailbox.isClosed = true ↔ t.isAsked = true ∨ t.IsGone := by
    constructor
    · intro hclosed
      cases hasked : t.isAsked with
      | true => exact .inl rfl
      | false => exact .inr (hs.sound.shut ⟨hasked, .inl hclosed⟩)
    · rintro (hasked | hgone)
      · -- an open mailbox would mean that a request is still about to close it
        by_contra hopen
        have hnone : ∀ call ∈ t.office.asks, call ≠ .closing .flagging := by simp [hasks]
        obtain ⟨rest, hstop⟩ := hs.unheeded ⟨hasked, Bool.not_eq_true _ ▸ hopen, hnone⟩
        cases hstop
      · exact hs.sound.closed hgone
  have hdone : t.missed ≤ 1 → t.tenure.state = .done := by
    intro hintime
    have hphase : t.office.phase = .done :=
      (hs.collected hintime (show 2 ≤ 3 by decide)).resolve_right nofun
    exact congrArg Phase.state hphase
  have hdue : 2 ≤ t.missed → t.tenure.state = .scheduled := fun hlate =>
    congrArg Phase.state (hs.late hlate).1
  -- how many of the three walks the agent missed decides its fate
  have hcases : t.missed = 0 ∨ t.missed = 1 ∨ t.missed = 2 ∨ t.missed = 3 := by omega
  rcases hcases with hnone | hone | htwo | hthree
  · refine .inTime hnone (hs.cleared rfl (by omega)) (hdone (by omega)) (hclosed.mpr ?_)
    exact (hs.listed hnone (show 1 ≤ 3 by decide)).imp id fun h => h.resolve_right nofun
  · exact .unasked hone (hs.cleared rfl (by omega)) (hdone (by omega)) hclosed
  · exact .unseen htwo (hs.cleared rfl (by omega)) (hdue (by omega))
  · exact .leftover hthree (hs.leftover hthree) (hdue (by omega))

end Tenant

namespace House

/-- When the stop, all spawns and all requests to end have returned, the stop has left nothing
behind exactly if all agents came in time; who did not is where `Fate` says. A spawn that looks
when the stop has begun brings no agent in. -/
theorem isEmptied_iff_no_latecomer (plan : Plan) (actions : List (Action μ ε))
    (hrest : (opened.run plan actions).IsAtRest) :
    let h : House μ ε := opened.run plan actions
    (∀ t ∈ h.tenants, t.Fate) ∧
    (h.IsEmptied ↔ ∀ t ∈ h.tenants, t.CameInTime) ∧
    ∀ pre, pre <+: actions → (opened.run plan pre).stop ≠ .waiting →
      ∀ index offer, (opened.run plan pre).spawns[index]? = some (.looking offer) →
        (opened.run plan pre).next plan (.spawn index) =
          { opened.run plan pre with
            spawns := replace (opened.run plan pre).spawns index none
            answers := (opened.run plan pre).answers ++ [.error .spawnRejected] } := by
  intro h
  have hs : h.Kept plan := kept_run plan actions
  -- at rest every debt of the stop has been paid or come too late
  have hfate : ∀ t ∈ h.tenants, t.Fate := by
    intro t ht
    obtain ⟨index, hplace⟩ := List.mem_iff_getElem?.mp ht
    have hkept := hs.tenants index t hplace
    rw [hrest.stop] at hkept
    exact hkept.fate (hrest.asks t ht)
  refine ⟨hfate, ?_, ?_⟩
  · constructor
    · -- every agent has been handed to somebody, for no spawn is in progress
      intro hemptied t ht
      obtain ⟨index, hplace⟩ := List.mem_iff_getElem?.mp ht
      have hlt := (List.getElem?_eq_some_iff.mp hplace).1
      have hanswer := (hs.handed.returned index hlt).resolve_right (by simp [h, hrest.spawns])
      obtain ⟨t', hplace', hends⟩ := hemptied.handles index hanswer
      obtain rfl := Option.some.inj (hplace.symm.trans hplace')
      exact (hfate t ht).cameInTime_iff.mpr ⟨hemptied.register t ht, hends⟩
    · intro hintime
      have hsettled := fun t ht => (hfate t ht).cameInTime_iff.mp (hintime t ht)
      refine ⟨fun t ht => (hsettled t ht).1, fun index hanswer => ?_⟩
      have hplace := List.getElem?_eq_getElem (hs.handed.answered index hanswer)
      have ht := List.mem_of_getElem? hplace
      exact ⟨_, hplace, (hsettled _ ht).2⟩
  · intro pre _ hbegun index offer hcall
    have hclosed := (kept_run plan pre).isOpen_eq hbegun
    simp only [next, hcall, House.spawn, hclosed]
    rfl

/-- An agent that always waits. -/
def sleeper : Behavior (Office Unit Unit) Unit :=
  ⟨.answer (.ok .wait), .answer (.ok ()), fun p => (p, .ok ())⟩

theorem within_sleeper : sleeper.Within Office.Mingles :=
  ⟨trivial, trivial, fun p => ⟨[], p.own, nofun, rfl⟩⟩

def sleeping : Offer Unit Unit := ⟨sleeper, within_sleeper, (), none, none⟩

/-- A register of one part. -/
def cottage : Plan := ⟨1, fun _ => 0, ⟨2, 2, 0⟩, .stopOnFailure, 5⟩

/-- An agent comes, and never has a turn: the stop asks it to end, waits no longer, and ends
it. -/
theorem isEmptied_of_guest :
    let coming : List (Action Unit Unit) := .callSpawn sleeping :: List.replicate 3 (.spawn 0)
    let h := opened.run cottage (coming ++ List.replicate 18 .stop)
    h.IsAtRest ∧ h.IsEmptied ∧ h.answers = [.ok 0] := by
  intro coming h
  have hrest : h.IsAtRest := by
    subst h coming
    refine isAtRest_of ?_ ?_ ?_ <;> cbv
  have hmissed : h.tenants.all (fun t => t.missed == 0) = true := by
    subst h coming
    cbv
  refine ⟨hrest, (isEmptied_iff_no_latecomer cottage _ hrest).2.1.mpr fun t ht => .inl ?_, ?_⟩
  · exact eq_of_beq (List.all_eq_true.mp hmissed t ht)
  · subst h coming
    cbv

/-- Who was on the register, in which state, and whether it takes no more messages. -/
def remains (h : House μ ε) : List (Bool × AgentState × Bool) :=
  h.tenants.map fun t => (t.office.isRegistered, t.tenure.state, t.office.mailbox.isClosed)

/-- A house is not emptied if it leaves a mailbox open whose agent was answered for. -/
theorem not_isEmptied {h : House μ ε} {isRegistered isClosed : Bool} {state : AgentState}
    (hremains : h.remains = [(isRegistered, state, isClosed)])
    (hanswers : h.answers = [.ok 0]) (hopen : isClosed = false) : ¬ h.IsEmptied := by
  intro hemptied
  obtain ⟨t, ht, -, hclosed⟩ := hemptied.handles 0 (by simp [hanswers])
  have hmem : (t.office.isRegistered, t.tenure.state, t.office.mailbox.isClosed) ∈ h.remains :=
    List.mem_map_of_mem (List.mem_of_getElem? ht)
  rw [hremains, List.mem_singleton, Prod.mk.injEq, Prod.mk.injEq] at hmem
  exact nomatch hopen.symm.trans (hmem.2.2.symm.trans hclosed)

/-- A spawn looks, and finds the house open. Then the stop comes and goes, and the spawn brings
its agent in only after the stop has asked everybody to end (first), has seen who is left
(second), or is over (third). The agent takes messages for ever. In the first case it is done
all the same, in the second it is neither on the register nor done, and in the third it is on
the register and due. -/
theorem left_behind_by_stop :
    let looking : List (Action Unit Unit) := [.callSpawn sleeping, .spawn 0]
    let coming : List (Action Unit Unit) := List.replicate 2 (.spawn 0)
    let late := fun steps : Nat => opened.run cottage
      (looking ++ List.replicate steps .stop ++ coming ++ List.replicate (18 - steps) .stop)
    (∀ steps ∈ [2, 7, 18], (late steps).IsAtRest ∧ (late steps).answers = [.ok 0] ∧
      ¬ (late steps).IsEmptied) ∧
    (late 2).remains = [(false, .done, false)] ∧
    (late 7).remains = [(false, .scheduled, false)] ∧
    (late 18).remains = [(true, .scheduled, false)] := by
  intro looking coming late
  have hfirst : (late 2).remains = [(false, .done, false)] := by
    subst late looking coming
    cbv
  have hsecond : (late 7).remains = [(false, .scheduled, false)] := by
    subst late looking coming
    cbv
  have hthird : (late 18).remains = [(true, .scheduled, false)] := by
    subst late looking coming
    cbv
  have hanswers : ∀ steps ∈ [2, 7, 18], (late steps).answers = [.ok 0] := by
    subst late looking coming
    simp only [List.forall_mem_cons, List.not_mem_nil, false_implies, implies_true, and_true]
    refine ⟨?_, ?_, ?_⟩ <;> cbv
  have hrest : ∀ steps ∈ [2, 7, 18], (late steps).IsAtRest := by
    subst late looking coming
    simp only [List.forall_mem_cons, List.not_mem_nil, false_implies, implies_true, and_true]
    refine ⟨?_, ?_, ?_⟩ <;> refine isAtRest_of ?_ ?_ ?_ <;> cbv
  refine ⟨fun steps hsteps => ⟨hrest steps hsteps, hanswers steps hsteps, ?_⟩, hfirst, hsecond,
    hthird⟩
  have hleft := hanswers steps hsteps
  simp only [List.mem_cons, List.not_mem_nil, or_false] at hsteps
  rcases hsteps with rfl | rfl | rfl
  · exact not_isEmptied hfirst hleft rfl
  · exact not_isEmptied hsecond hleft rfl
  · exact not_isEmptied hthird hleft rfl

end House

end Troupe
