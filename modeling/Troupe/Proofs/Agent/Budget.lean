import Troupe.Proofs.Agent.Steps

/-!
# Restart budgets

An agent that fails is started again until its policy grants no more restarts, until it is
asked to end, or until it cannot be started again. To see that, an agent is made to take notes
(`Resident.noted`): of what its resumes answered, of the failures that were counted, of its
restarts and of its end. It does what it did before otherwise.

* `plain_turn` — keeping notes changes nothing;
* `Life.advance` — what one step adds to an agent's life;
* `isBudgeted_run` — whenever it is resumed and whatever others do, an agent is restarted no
  more often than its policy grants, and stopped by the first failure that is not met by a
  restart.
-/

namespace Troupe

/-! ## Notes -/

/-- What an agent goes through. -/
inductive Note where
  /-- A resume came to its answer. -/
  | resumed (answer : Except String Step)
  /-- A failure was counted, of an agent that was asked to end or was not. -/
  | failed (wasAsked : Bool)
  /-- The agent was to start again. -/
  | restarted (result : Except String Unit)
  /-- The agent was given its last word. -/
  | lastWord
  /-- The agent was completed. -/
  | left

/-- A world with what an agent goes through in it. -/
structure Chronicle (σ : Type) where
  world : σ
  /-- How many failures were counted. -/
  failed : Nat
  report : Option FailureReport
  notes : List Note

variable {σ μ α : Type}

namespace Chronicle

def start (s : σ) : Chronicle σ := ⟨s, 0, none, []⟩

/-- Changes the world alone. -/
def alter (f : σ → σ) (l : Chronicle σ) : Chronicle σ := { l with world := f l.world }

def note (x : Note) (l : Chronicle σ) : Chronicle σ := { l with notes := l.notes ++ [x] }

end Chronicle

/-- The program in a world with notes, which it leaves alone. -/
def Program.noted : Program σ μ α → Program (Chronicle σ) μ α
  | .answer a => .answer a
  | .change f next => .change (Chronicle.alter f) fun l => noted (next l.world)
  | .receive next => .receive fun e => noted (next e)

/-- Notes what a resume answers. -/
def Program.resumption (p : Program σ μ (Except String Step)) :
    Program (Chronicle σ) μ (Except String Step) :=
  p.noted.bind fun answer => .alter (Chronicle.note (.resumed answer)) (.answer answer)

/-- Notes that the agent is given its last word. -/
def Program.speech (p : Program σ μ (Except String Unit)) :
    Program (Chronicle σ) μ (Except String Unit) :=
  .alter (Chronicle.note .lastWord) p.noted

/-- The agent takes notes. -/
def Behavior.noted (b : Behavior σ μ) : Behavior (Chronicle σ) μ where
  resume := b.resume.resumption
  onStop := b.onStop.speech
  onRestart l :=
    let (s, result) := b.onRestart l.world
    ({ l with world := s, notes := l.notes ++ [.restarted result] }, result)

/-- Counts failures, keeps reports, and notes what happens to the agent. -/
def Surroundings.noted (around : Surroundings σ μ) : Surroundings (Chronicle σ) μ where
  isTerminating l := around.isTerminating l.world
  isEmpty l := around.isEmpty l.world
  dequeue l := (l.alter fun s => (around.dequeue s).1, (around.dequeue l.world).2)
  register l := l.alter around.register
  meanwhile l := l.alter around.meanwhile
  countFailure l :=
    let s := around.countFailure l.world
    { l with
      world := s
      failed := l.failed + 1
      notes := l.notes ++ [.failed (around.isTerminating s)] }
  keepReport report l := { l with world := around.keepReport report l.world, report := some report }
  complete l := (l.alter around.complete).note .left

def Resident.noted (a : Resident σ μ) : Resident (Chronicle σ) μ :=
  ⟨a.behavior.noted, a.around.noted, a.policy, a.id, a.quantum⟩

/-! ## Keeping notes changes nothing -/

/-- A program in a world with notes runs as it does without them. -/
theorem run_noted (around : Surroundings σ μ) (p : Program σ μ α) (l : Chronicle σ)
    (t : TurnBooks) :
    p.noted.run around.noted l t =
      ({ l with world := (p.run around l.world t).1 }, (p.run around l.world t).2) := by
  -- by induction on the program; a receive goes on with what the same mailbox hands out
  induction p generalizing l t with
  | answer a => rfl
  | change f next ih => exact ih _ _ _
  | receive next ih =>
      by_cases hbudget : t.budget = 0
      · simp only [Program.noted, Program.run, if_pos hbudget]
        exact ih _ _ _
      · simp only [Program.noted, Program.run, if_neg hbudget]
        rcases hdequeue : around.dequeue l.world with ⟨s, _ | e⟩
        · simp only [Surroundings.noted, Chronicle.alter, hdequeue]
          exact ih none _ _
        · simp only [Surroundings.noted, Chronicle.alter, hdequeue]
          exact ih (some e) _ _

/-- A program that goes on with another is run up to its answer and then on. -/
theorem run_bind {β : Type} (around : Surroundings σ μ) (p : Program σ μ α)
    (k : α → Program σ μ β) (s : σ) (t : TurnBooks) :
    (p.bind k).run around s t =
      (k (p.run around s t).2.2).run around (p.run around s t).1 (p.run around s t).2.1 := by
  -- by induction on the first program, with the world and the books it leaves
  induction p generalizing s t with
  | answer a => rfl
  | change f next ih => exact ih _ _ _
  | receive next ih =>
      by_cases hbudget : t.budget = 0
      · simp only [Program.bind, Program.run, if_pos hbudget]
        exact ih _ _ _
      · simp only [Program.bind, Program.run, if_neg hbudget]
        rcases around.dequeue s with ⟨s', _ | e⟩
        · exact ih none _ _
        · exact ih (some e) _ _

/-- A resume is noted with its answer, and changes nothing else. -/
theorem run_resumption (around : Surroundings σ μ) (p : Program σ μ (Except String Step))
    (l : Chronicle σ) (t : TurnBooks) :
    p.resumption.run around.noted l t =
      (({ l with world := (p.run around l.world t).1 } : Chronicle σ).note
        (.resumed (p.run around l.world t).2.2), (p.run around l.world t).2) := by
  rw [Program.resumption, run_bind, run_noted]
  rfl

/-- What a turn comes to, without the notes. -/
def TurnResult.plain (r : TurnResult (Chronicle σ)) : TurnResult σ :=
  ⟨r.world.world, r.books, r.restarts, r.ending⟩

/-- The last word is noted, and is otherwise the last word. -/
theorem plain_stop (b : Behavior σ μ) (around : Surroundings σ μ) (l : Chronicle σ)
    (t : TurnBooks) (restarts : Nat) :
    (b.noted.stop around.noted l t restarts).plain = b.stop around l.world t restarts := by
  have hrun := run_noted around b.onStop (l.note .lastWord) t
  simp only [Behavior.stop, Behavior.noted, Program.speech, Program.alter, Program.run, hrun]
  rfl

/-- A failure is noted, and is otherwise met as ever. -/
theorem plain_fail (b : Behavior σ μ) (around : Surroundings σ μ) (policy : Policy)
    (id : AgentId) (reason : String) (l : Chronicle σ) (t : TurnBooks) (restarts : Nat) :
    (b.noted.fail around.noted policy id reason l t restarts).plain =
      b.fail around policy id reason l.world t restarts := by
  -- asked to end, out of restarts, or started again: the same three ways with notes and without
  cases hasked : around.isTerminating (around.countFailure l.world) with
  | true => simp [Behavior.fail, Surroundings.noted, hasked, TurnResult.plain, Chronicle.alter,
      Chronicle.note]
  | false =>
      cases haction : policy.action ⟨id, reason, restarts⟩ with
      | stop => simp [Behavior.fail, Surroundings.noted, hasked, haction, TurnResult.plain,
          Chronicle.alter, Chronicle.note]
      | restart =>
          rcases hrestart : b.onRestart (around.countFailure l.world) with ⟨s, why | answer⟩
          · simp [Behavior.fail, Behavior.noted, Surroundings.noted, hasked, haction, hrestart,
              TurnResult.plain, Chronicle.alter, Chronicle.note]
          · simp [Behavior.fail, Behavior.noted, Surroundings.noted, hasked, haction, hrestart,
              TurnResult.plain]

/-- The resumes of a turn are noted, and are otherwise the resumes of that turn. -/
theorem plain_resumes (b : Behavior σ μ) (around : Surroundings σ μ) (policy : Policy)
    (id : AgentId) (left : Nat) (l : Chronicle σ) (t : TurnBooks) (restarts : Nat) :
    (b.noted.resumes around.noted policy id left l t restarts).plain =
      b.resumes around policy id left l.world t restarts := by
  -- by induction on the resumes left; every test of the turn looks at the world alone
  induction left generalizing l t restarts with
  | zero => rfl
  | succ left ih =>
      have hrun := run_resumption around b.resume (l.alter around.meanwhile)
        { t with drained := false }
      have hworld : (l.alter around.meanwhile).world = around.meanwhile l.world := rfl
      rw [hworld] at hrun
      simp only [Behavior.resumes]
      by_cases hend : (around.isTerminating (around.meanwhile l.world) &&
          around.isEmpty (around.meanwhile l.world)) = true
      · exact (congrArg TurnResult.plain (if_pos hend)).trans
          ((plain_stop _ _ _ _ _).trans (if_pos hend).symm)
      · refine (congrArg TurnResult.plain (if_neg hend)).trans (Eq.trans ?_ (if_neg hend).symm)
        have hresume : b.noted.resume.run around.noted (around.noted.meanwhile l)
            { t with drained := false } = _ := hrun
        rw [hresume]
        rcases b.resume.run around (around.meanwhile l.world) { t with drained := false } with
          ⟨s, books, reason | _ | _ | _⟩
        · exact plain_fail _ _ _ _ _ _ _ _
        · rfl
        · -- the agent wants to wait
          by_cases hasked : around.isTerminating (around.meanwhile s) = true
          · exact (congrArg TurnResult.plain (if_pos hasked)).trans
              ((plain_stop _ _ _ _ _).trans (if_pos hasked).symm)
          · refine (congrArg TurnResult.plain (if_neg hasked)).trans
              (Eq.trans ?_ (if_neg hasked).symm)
            by_cases hmore : (books.exhausted && !around.isEmpty (around.meanwhile s)) = true
            · exact (congrArg TurnResult.plain (if_pos hmore)).trans (if_pos hmore).symm
            · refine (congrArg TurnResult.plain (if_neg hmore)).trans
                (Eq.trans ?_ (if_neg hmore).symm)
              by_cases hagain : (books.drained && !around.isEmpty
                  (around.meanwhile (around.register (around.meanwhile s)))) = true
              · exact (congrArg TurnResult.plain (if_pos hagain)).trans
                  ((ih _ _ _).trans (if_pos hagain).symm)
              · exact (congrArg TurnResult.plain (if_neg hagain)).trans (if_neg hagain).symm
        · rfl

/-- An agent that takes notes has the turns that it has without them. -/
theorem plain_turn (b : Behavior σ μ) (around : Surroundings σ μ) (policy : Policy)
    (id : AgentId) (quantum : Nat) (l : Chronicle σ) (restarts : Nat) :
    (b.noted.turn around.noted policy id quantum l restarts).plain =
      b.turn around policy id quantum l.world restarts :=
  plain_resumes b around policy id quantum l (.opened quantum) restarts

/-! ## Lives -/

/-- How often a policy has an agent started again. -/
def Policy.budget : Policy → Nat
  | stopOnFailure => 0
  | limited most => most

theorem Policy.action_eq_restart {policy : Policy} {report : FailureReport} :
    policy.action report = .restart ↔ report.restarts < policy.budget := by
  -- a policy that never restarts is one with no restarts left
  cases policy with
  | stopOnFailure => simp [action, budget]
  | limited most => exact grants_iff most report

theorem Policy.action_eq_stop {policy : Policy} {report : FailureReport} :
    policy.action report = .stop ↔ policy.budget ≤ report.restarts := by
  rw [← Nat.not_lt, ← action_eq_restart]
  cases policy.action report <;> simp

/-- An agent's life up to now, with so many restarts. It was not asked to end at any of its
failures, there were restarts left at each, and each restart went well. -/
inductive Steady (most : Nat) : Nat → List Note → Prop where
  | fresh : Steady most 0 []
  | resumed {granted : Nat} {notes : List Note} (h : Steady most granted notes) (step : Step) :
      Steady most granted (notes ++ [.resumed (.ok step)])
  | restarted {granted : Nat} {notes : List Note} (h : Steady most granted notes)
      (hleft : granted < most) (reason : String) :
      Steady most (granted + 1)
        (notes ++ [.resumed (.error reason), .failed false, .restarted (.ok ())])

/-- A life that is over: the agent left when its work was done, after its last word, or because
of a failure that was not met by a restart. -/
inductive Over (most : Nat) (id : AgentId) : Chronicle σ → Prop where
  | finished (s : σ) {granted : Nat} {notes : List Note} (h : Steady most granted notes) :
      Over most id ⟨s, granted, none, notes ++ [.left]⟩
  | spoken (s : σ) {granted : Nat} {notes : List Note} (h : Steady most granted notes) :
      Over most id ⟨s, granted, none, notes ++ [.lastWord, .left]⟩
  /-- The agent was asked to end, or there was no restart left. -/
  | stopped (s : σ) {granted : Nat} {notes : List Note} (h : Steady most granted notes)
      (reason : String) (wasAsked : Bool) (hwhy : wasAsked = true ∨ granted = most) :
      Over most id ⟨s, granted + 1, some ⟨id, reason, granted⟩,
        notes ++ [.resumed (.error reason), .failed wasAsked, .left]⟩
  /-- The agent could not be started again. -/
  | broken (s : σ) {granted : Nat} {notes : List Note} (h : Steady most granted notes)
      (hleft : granted < most) (reason why : String) :
      Over most id ⟨s, granted + 1, some ⟨id, reason, granted⟩,
        notes ++ [.resumed (.error reason), .failed false, .restarted (.error why), .left]⟩

/-- Where an agent can be in a steady life. -/
inductive Going : Point (Chronicle σ) μ → Prop where
  | resuming (left : Nat) : Going (.resuming left)
  | running (left : Nat) (p : Program σ μ (Except String Step)) :
      Going (.running left p.resumption)
  | told (left : Nat) (step : Step) : Going (.running left (.answer (.ok step)))
  | answered (left : Nat) (step : Step) : Going (.answered left (.ok step))
  | waiting (left : Nat) : Going (.waiting left)
  | enlisting (left : Nat) : Going (.enlisting left)
  | enlisted (left : Nat) : Going (.enlisted left)
  | stopping (p : Program σ μ (Except String Unit)) : Going (.stopping p.speech)
  | between (ending : TurnEnd) (h : ending ≠ .done) : Going (.ended ending)

/-- Where an agent is that has failed, before the failure is met. -/
inductive Failing (reason : String) : Point (Chronicle σ) μ → Prop where
  | told (left : Nat) : Failing reason (.running left (.answer (.error reason)))
  | answered (left : Nat) : Failing reason (.answered left (.error reason))

/-- A life and where it stands. -/
inductive Life (most : Nat) (id : AgentId) : Pace (Chronicle σ) μ → Prop where
  | going (s : σ) {granted : Nat} {notes : List Note} (h : Steady most granted notes)
      (books : TurnBooks) {point : Point (Chronicle σ) μ} (hpoint : Going point)
      (history : List (Event μ)) :
      Life most id ⟨⟨s, granted, none, notes⟩, books, granted, point, history⟩
  | failing (s : σ) {granted : Nat} {notes : List Note} (h : Steady most granted notes)
      (books : TurnBooks) {reason : String} {point : Point (Chronicle σ) μ}
      (hpoint : Failing reason point) (history : List (Event μ)) :
      Life most id ⟨⟨s, granted, none, notes ++ [.resumed (.error reason)]⟩, books, granted, point,
        history⟩
  | speaking (s : σ) {granted : Nat} {notes : List Note} (h : Steady most granted notes)
      (books : TurnBooks) (p : Program σ μ (Except String Unit)) (history : List (Event μ)) :
      Life most id ⟨⟨s, granted, none, notes ++ [.lastWord]⟩, books, granted, .stopping p.noted,
        history⟩
  | past {l : Chronicle σ} (h : Over most id l) (books : TurnBooks) (restarts : Nat)
      (history : List (Event μ)) : Life most id ⟨l, books, restarts, .ended .done, history⟩

theorem Steady.granted_le {most granted : Nat} {notes : List Note}
    (h : Steady most granted notes) : granted ≤ most := by
  induction h with
  | fresh => exact Nat.zero_le most
  | resumed h step ih => exact ih
  | restarted h hleft reason ih => exact hleft

section Step

variable {a : Resident σ μ} {granted : Nat} {notes : List Note}

/-- A receive leaves the notes alone. -/
theorem receive_noted (a : Resident σ μ) (l : Chronicle σ) (books : TurnBooks) (restarts : Nat)
    (point : Point (Chronicle σ) μ) (history : List (Event μ))
    (next : Option (Envelope μ) → Point (Chronicle σ) μ) :
    ∃ s books' e history', a.noted.receive ⟨l, books, restarts, point, history⟩ next =
      ⟨{ l with world := s }, books', restarts, next e, history'⟩ := by
  unfold Resident.receive
  -- refused or not, the receive looks at the books and at the world inside
  by_cases hbudget : books.budget = 0
  · exact ⟨l.world, { books with exhausted := true }, none, history, if_pos hbudget⟩
  · rw [if_neg hbudget]
    simp only [Resident.noted, Surroundings.noted, Chronicle.alter]
    cases (a.around.dequeue l.world).2 with
    | none => exact ⟨_, _, _, _, rfl⟩
    | some e => exact ⟨_, _, _, _, rfl⟩

theorem append_three {γ : Type} (xs : List γ) (x y z : γ) :
    xs ++ [x, y, z] = xs ++ [x] ++ [y] ++ [z] := by
  simp

/-- A restart is noted with how it went. -/
theorem onRestart_noted {l l' : Chronicle σ} {result : Except String Unit}
    (h : a.noted.behavior.onRestart l = (l', result)) :
    ∃ s, l' = { l with world := s, notes := l.notes ++ [.restarted result] } := by
  have hresult : (a.behavior.onRestart l.world).2 = result := congrArg Prod.snd h
  exact ⟨(a.behavior.onRestart l.world).1, hresult ▸ (congrArg Prod.fst h).symm⟩

/-- A failure is met: the agent goes on, or its life is over. -/
theorem Life.fail (h : Steady a.policy.budget granted notes) (s : σ) (books : TurnBooks)
    (reason : String) (point : Point (Chronicle σ) μ) (history : List (Event μ)) :
    Life a.policy.budget a.id (a.noted.fail ⟨⟨s, granted, none,
      notes ++ [.resumed (.error reason)]⟩, books, granted, point, history⟩ reason) := by
  have hfailed := a.noted.failed ⟨⟨s, granted, none, notes ++ [.resumed (.error reason)]⟩, books,
    granted, point, history⟩ reason
  generalize a.noted.fail _ reason = after at hfailed
  cases hfailed with
  | stopped hwhy =>
      -- there were never more restarts than the policy has, so none left means all granted
      have hwhy' : a.around.isTerminating (a.around.countFailure s) = true ∨
          granted = a.policy.budget := by
        refine hwhy.imp id fun hstop => ?_
        exact Nat.le_antisymm h.granted_le (Policy.action_eq_stop.mp hstop)
      have hover (s : σ) : Over a.policy.budget a.id _ := .stopped s h reason _ hwhy'
      simp only [append_three] at hover
      exact .past (hover _) _ _ _
  | restarted hasked haction l hrestart =>
      obtain ⟨s', rfl⟩ := onRestart_noted hrestart
      -- the restart goes on the steady part of the life
      have hsteady := h.restarted (Policy.action_eq_restart.mp haction) reason
      rw [append_three, ← show _ = false from hasked] at hsteady
      exact .going s' hsteady _ (.between .yield nofun) _
  | broken hasked haction l why hrestart =>
      obtain ⟨s', rfl⟩ := onRestart_noted hrestart
      have hover (s : σ) : Over a.policy.budget a.id _ :=
        .broken s h (Policy.action_eq_restart.mp haction) reason why
      simp only [← List.singleton_append (l := [_, _, _]), ← List.append_assoc, append_three,
        ← show _ = false from hasked] at hover
      exact .past (hover _) _ _ _

/-- A step of the agent. -/
theorem Life.advance {c : Pace (Chronicle σ) μ} (h : Life a.policy.budget a.id c) :
    Life a.policy.budget a.id (a.noted.advance c) := by
  -- by what the agent is up to: over, saying its last word, about to meet a failure, or going on
  cases h with
  | past h books restarts history => exact .past h books restarts history
  | @speaking s granted notes h books p history =>
      cases p with
      | answer _ =>
          have hover : Over a.policy.budget a.id _ := .spoken (a.around.complete s) h
          rw [← List.singleton_append, ← List.append_assoc] at hover
          exact .past hover _ _ _
      | change f next => exact .speaking (f s) h books _ history
      | receive next =>
          obtain ⟨s', books', e, history', hreceive⟩ := receive_noted a
            ⟨s, granted, none, notes ++ [.lastWord]⟩ books granted
            (.stopping (.noted (.receive next))) history fun e => .stopping (next e).noted
          have hnext : Life a.policy.budget a.id _ := .speaking s' h books' (next e) history'
          rw [← hreceive] at hnext
          exact hnext
  | failing s h books hpoint history =>
      -- the failure is noted with the answer, and met one step after the answer is told
      cases hpoint with
      | told left => exact .failing s h books (.answered left) history
      | answered left => exact .fail h _ books _ _ history
  | @going s granted notes h books point hpoint history =>
      cases hpoint with
      | resuming left =>
          cases left with
          | zero => exact .going s h books (.between .yield nofun) history
          | succ left =>
              show Life _ _ (a.noted.step ⟨_, books, granted, .resuming (left + 1), history⟩)
              rw [Resident.step_resuming]
              split
              · exact .going _ h books (.stopping _) _
              · exact .going _ h _ (.running left _) history
      | running left p =>
          cases p with
          | answer answer =>
              cases answer with
              | error reason => exact .failing s h books (.told left) history
              | ok step => exact .going s (h.resumed step) books (.told left step) history
          | change f next => exact .going (f s) h books (.running left _) history
          | receive next =>
              obtain ⟨s', books', e, history', hreceive⟩ := receive_noted a
                ⟨s, granted, none, notes⟩ books granted
                (.running left (.resumption (.receive next))) history
                fun e => .running left (next e).resumption
              have hnext : Life a.policy.budget a.id _ :=
                .going s' h books' (.running left (next e)) history'
              rw [← hreceive] at hnext
              exact hnext
      | told left step => exact .going s h books (.answered left step) history
      | answered left step =>
          cases step with
          | yield => exact .going _ h books (.between .yield nofun) history
          | done => exact .past (.finished _ h) books granted _
          | wait =>
              show Life _ _ (a.noted.step ⟨_, books, granted, .answered left (.ok .wait), history⟩)
              rw [Resident.step_wait]
              split
              · exact .going _ h books (.stopping _) _
              · exact .going _ h books (.waiting left) history
      | waiting left =>
          show Life _ _ (a.noted.step ⟨_, books, granted, .waiting left, history⟩)
          rw [Resident.step_waiting]
          split
          · exact .going s h books (.between .yield nofun) history
          · exact .going s h books (.enlisting left) history
      | enlisting left => exact .going _ h books (.enlisted left) history
      | enlisted left =>
          show Life _ _ (a.noted.step ⟨_, books, granted, .enlisted left, history⟩)
          rw [Resident.step_enlisted]
          split
          · exact .going _ h books (.resuming left) history
          · exact .going _ h books (.between .wait nofun) history
      | stopping p => exact .speaking s h books p history
      | between ending hne =>
          cases ending with
          | done => exact absurd rfl hne
          | yield | wait => exact .going s h _ (.resuming _) history

end Step

/-! ## Runs -/

/-- Others change the world, and leave the agent's notes alone. -/
def Bystanders (c c' : Pace (Chronicle σ) μ) : Prop :=
  ∃ s history, c' = { c with world := { c.world with world := s }, history }

theorem Life.bystanders {most : Nat} {id : AgentId} {c c' : Pace (Chronicle σ) μ}
    (h : Life most id c) (hothers : Bystanders c c') : Life most id c' := by
  obtain ⟨s, history, rfl⟩ := hothers
  -- what others change is the world, which no kind of life depends on
  cases h with
  | going _ h books hpoint _ => exact .going s h books hpoint history
  | failing _ h books hpoint _ => exact .failing s h books hpoint history
  | speaking _ h books p _ => exact .speaking s h books p history
  | past h books restarts _ =>
      refine .past ?_ books restarts history
      cases h with
      | finished _ h => exact .finished s h
      | spoken _ h => exact .spoken s h
      | stopped _ h reason wasAsked hwhy => exact .stopped s h reason wasAsked hwhy
      | broken _ h hleft reason why => exact .broken s h hleft reason why

/-- An agent that was never resumed. -/
def Pace.fresh (s : σ) : Pace (Chronicle σ) μ :=
  ⟨.start s, .opened 0, 0, .ended .yield, []⟩

/-- Along every run the agent has led a life that its policy allows. -/
theorem life_run (a : Resident σ μ) {s : σ} {c : Pace (Chronicle σ) μ}
    (hrun : a.noted.Runs Bystanders (.fresh s) c) : Life a.policy.budget a.id c := by
  induction hrun with
  | refl => exact .going s .fresh _ (.between .yield nofun) _
  | tail _ hstep ih =>
      rcases hstep with hothers | rfl
      · exact ih.bystanders hothers
      · exact ih.advance

/-! ## What a life tells -/

def Note.isRestart : Note → Bool
  | restarted _ => true
  | _ => false

def Note.isFailure : Note → Bool
  | failed _ => true
  | _ => false

/-- Whether this is the answer of a resume that failed. -/
def Note.isFailedResume : Note → Bool
  | resumed (.error _) => true
  | _ => false

def Note.isLastWord : Note → Bool
  | lastWord => true
  | _ => false

/-- Whether the agent left because of a failure. -/
def isLeftByFailure (notes : List Note) : Bool :=
  match notes.reverse with
  | .left :: .failed _ :: _ => true
  | .left :: .restarted (.error _) :: _ => true
  | _ => false

/-- In a steady life there are as many failed resumes as restarts, each counted, and no last word.
-/
theorem Steady.counts {most granted : Nat} {notes : List Note} (h : Steady most granted notes) :
    notes.countP Note.isRestart = granted ∧ notes.countP Note.isFailure = granted ∧
      notes.countP Note.isFailedResume = granted ∧ notes.countP Note.isLastWord = 0 := by
  induction h with
  | fresh => exact ⟨rfl, rfl, rfl, rfl⟩
  | resumed h step ih =>
      obtain ⟨hrestarts, hfailures, hresumes, hwords⟩ := ih
      simp only [List.countP_append]
      exact ⟨hrestarts, hfailures, hresumes, hwords⟩
  | restarted h hleft reason ih =>
      obtain ⟨hrestarts, hfailures, hresumes, hwords⟩ := ih
      -- one failed resume, one count and one restart are added together
      simp only [List.countP_append]
      rw [hrestarts, hfailures, hresumes, hwords]
      exact ⟨rfl, rfl, rfl, rfl⟩

/-- What becomes of a failed resume. -/
inductive Met (most : Nat) (id : AgentId) (c : Pace (Chronicle σ) μ) (before : List Note)
    (reason : String) : List Note → Prop where
  /-- The agent is about to meet the failure. -/
  | pending (hpoint : Failing reason c.point) : Met most id c before reason []
  | restarted (hleft : before.countP Note.isFailedResume < most) (rest : List Note) :
      Met most id c before reason (.failed false :: .restarted (.ok ()) :: rest)
  | stopped (wasAsked : Bool)
      (hwhy : wasAsked = true ∨ before.countP Note.isFailedResume = most)
      (hreport : c.world.report = some ⟨id, reason, before.countP Note.isRestart⟩) :
      Met most id c before reason [.failed wasAsked, .left]
  | broken (hleft : before.countP Note.isFailedResume < most) (why : String)
      (hreport : c.world.report = some ⟨id, reason, before.countP Note.isRestart⟩) :
      Met most id c before reason [.failed false, .restarted (.error why), .left]

section Split

variable {notes before after tail : List Note} {reason : String}

/-- A failed resume is not among notes that have none. -/
theorem split_quiet (htail : ∀ x ∈ tail, x.isFailedResume = false)
    (h : notes ++ tail = before ++ .resumed (.error reason) :: after) :
    ∃ rest, notes = before ++ .resumed (.error reason) :: rest ∧ after = rest ++ tail := by
  -- the failed resume is found among the notes, or among those behind, where there is none
  rcases List.append_eq_append_iff.mp h with ⟨between, -, htail'⟩ | ⟨between, hnotes, hbetween⟩
  · have hmem : .resumed (.error reason) ∈ tail := by simp [htail']
    exact nomatch htail _ hmem
  · cases between with
    | nil =>
        have hmem : .resumed (.error reason) ∈ tail := by
          rw [List.nil_append] at hbetween
          simp [← hbetween]
        exact nomatch htail _ hmem
    | cons x rest =>
        obtain ⟨rfl, hrest⟩ := List.cons.inj hbetween
        exact ⟨rest, hnotes, hrest⟩

/-- A failed resume is the last one, or is before it. -/
theorem split_failure {last : String} (htail : ∀ x ∈ tail, x.isFailedResume = false)
    (h : notes ++ .resumed (.error last) :: tail = before ++ .resumed (.error reason) :: after) :
    (before = notes ∧ reason = last ∧ after = tail) ∨
      ∃ rest, notes = before ++ .resumed (.error reason) :: rest ∧
        after = rest ++ .resumed (.error last) :: tail := by
  -- it is found before the last failure, at it, or behind it, where there is none
  rcases List.append_eq_append_iff.mp h with ⟨between, hbefore, htail'⟩ | ⟨between, hnotes, hrest⟩
  · cases between with
    | nil =>
        obtain ⟨hlast, hafter⟩ := List.cons.inj htail'
        exact .inl ⟨by simpa using hbefore, by simpa using hlast.symm, hafter.symm⟩
    | cons x rest =>
        have hmem : .resumed (.error reason) ∈ tail := by simp [(List.cons.inj htail').2]
        exact nomatch htail _ hmem
  · cases between with
    | nil =>
        obtain ⟨hlast, hafter⟩ := List.cons.inj hrest
        exact .inl ⟨by simpa using hnotes.symm, by simpa using hlast, hafter⟩
    | cons x rest =>
        obtain ⟨rfl, hafter⟩ := List.cons.inj hrest
        exact .inr ⟨rest, hnotes, hafter⟩

end Split

/-- In a steady life every failure is met by a restart, and there was one left for it. -/
theorem Steady.met {most granted : Nat} {notes : List Note} (h : Steady most granted notes)
    {before after : List Note} {reason : String}
    (hsplit : notes = before ++ .resumed (.error reason) :: after) :
    (∃ n, Steady most n before ∧ n < most) ∧
      ∃ rest, after = .failed false :: .restarted (.ok ()) :: rest := by
  -- by induction on the life: the failure is the last one, met just now, or an earlier one
  induction h generalizing before after with
  | fresh => simp at hsplit
  | resumed h step ih =>
      obtain ⟨rest, hnotes, rfl⟩ := split_quiet (by simp [Note.isFailedResume]) hsplit
      obtain ⟨hbefore, rest', rfl⟩ := ih hnotes
      exact ⟨hbefore, rest' ++ [.resumed (.ok step)], rfl⟩
  | restarted h hleft last ih =>
      rcases split_failure (by simp [Note.isFailedResume]) hsplit with
        ⟨rfl, -, rfl⟩ | ⟨rest, hnotes, rfl⟩
      · exact ⟨⟨_, h, hleft⟩, [], rfl⟩
      · obtain ⟨hbefore, rest', rfl⟩ := ih hnotes
        exact ⟨hbefore, _, rfl⟩

/-- Nobody leaves in a steady life. -/
theorem Steady.isLeftByFailure_append {most granted : Nat} {notes : List Note}
    (h : Steady most granted notes) :
    isLeftByFailure notes = false ∧ isLeftByFailure (notes ++ [.left]) = false := by
  cases h with
  | fresh => exact ⟨rfl, rfl⟩
  | resumed h step => simp [isLeftByFailure]
  | restarted h hleft reason => simp [isLeftByFailure]

/-- An agent keeps to its restart budget. -/
structure IsBudgeted (most : Nat) (id : AgentId) (c : Pace (Chronicle σ) μ) : Prop where
  restarts_le : c.world.notes.countP Note.isRestart ≤ most
  /-- What becomes of each failed resume, by the number of those before it. -/
  met : ∀ before reason after, c.world.notes = before ++ .resumed (.error reason) :: after →
    before.countP Note.isRestart = before.countP Note.isFailedResume ∧
      Met most id c before reason after
  /-- Each failed resume is counted once, the last one when it is met. -/
  counted : c.world.notes.countP Note.isFailure = c.world.failed ∧
    (c.world.notes.countP Note.isFailedResume = c.world.failed ∨
      c.world.notes.countP Note.isFailedResume = c.world.failed + 1 ∧
        ∃ reason, Failing reason c.point)
  reported : c.world.report.isSome = isLeftByFailure c.world.notes
  silent : c.world.report.isSome = true → c.world.notes.countP Note.isLastWord = 0

section Telling

variable {most granted : Nat} {id : AgentId} {notes tail before after : List Note}
  {c : Pace (Chronicle σ) μ} {reason last : String}

/-- What becomes of the failures of a steady life, whatever comes after it. -/
theorem Steady.met_append (h : Steady most granted notes)
    (hsplit : notes = before ++ .resumed (.error reason) :: after) (tail : List Note) :
    before.countP Note.isRestart = before.countP Note.isFailedResume ∧
      Met most id c before reason (after ++ tail) := by
  obtain ⟨⟨n, hbefore, hleft⟩, rest, rfl⟩ := h.met hsplit
  obtain ⟨hrestarts, -, hresumes, -⟩ := hbefore.counts
  exact ⟨hrestarts.trans hresumes.symm, .restarted (hresumes ▸ hleft) (rest ++ tail)⟩

/-- What becomes of the failures of a life that ends without one. -/
theorem Steady.met_quiet (h : Steady most granted notes)
    (htail : ∀ x ∈ tail, x.isFailedResume = false)
    (hsplit : notes ++ tail = before ++ .resumed (.error reason) :: after) :
    before.countP Note.isRestart = before.countP Note.isFailedResume ∧
      Met most id c before reason after := by
  obtain ⟨rest, hnotes, rfl⟩ := split_quiet htail hsplit
  exact h.met_append hnotes tail

/-- What becomes of the failures of a life that ends with one. -/
theorem Steady.met_failure (h : Steady most granted notes)
    (htail : ∀ x ∈ tail, x.isFailedResume = false)
    (hlast : Met most id c notes last tail)
    (hsplit : notes ++ .resumed (.error last) :: tail =
      before ++ .resumed (.error reason) :: after) :
    before.countP Note.isRestart = before.countP Note.isFailedResume ∧
      Met most id c before reason after := by
  rcases split_failure htail hsplit with ⟨rfl, rfl, rfl⟩ | ⟨rest, hnotes, rfl⟩
  · obtain ⟨hrestarts, -, hresumes, -⟩ := h.counts
    exact ⟨hrestarts.trans hresumes.symm, hlast⟩
  · exact h.met_append hnotes _

end Telling

/-- A life that is over kept to its budget. -/
theorem Over.isBudgeted {most : Nat} {id : AgentId} {l : Chronicle σ} (h : Over most id l)
    (books : TurnBooks) (restarts : Nat) (history : List (Event μ)) :
    IsBudgeted most id (⟨l, books, restarts, .ended .done, history⟩ : Pace (Chronicle σ) μ) := by
  cases h with
  | finished s h =>
      obtain ⟨hrestarts, hfailures, hresumes, -⟩ := h.counts
      constructor
      · simpa [List.countP_append, List.countP_cons, Note.isRestart, hrestarts] using h.granted_le
      · exact fun before reason after => h.met_quiet (by simp [Note.isFailedResume])
      · simp [List.countP_append, Note.isFailure, Note.isFailedResume, hfailures, hresumes]
      · exact h.isLeftByFailure_append.2.symm
      · exact nofun
  | spoken s h =>
      obtain ⟨hrestarts, hfailures, hresumes, -⟩ := h.counts
      constructor
      · simpa [List.countP_append, List.countP_cons, Note.isRestart, hrestarts] using h.granted_le
      · exact fun before reason after => h.met_quiet (by simp [Note.isFailedResume])
      · simp [List.countP_append, Note.isFailure, Note.isFailedResume, hfailures, hresumes]
      · simp [isLeftByFailure]
      · exact nofun
  | stopped s h reason wasAsked hwhy =>
      obtain ⟨hrestarts, hfailures, hresumes, hwords⟩ := h.counts
      constructor
      · simpa [List.countP_append, List.countP_cons, Note.isRestart, hrestarts] using h.granted_le
      -- the last failure is met by leaving, the others were met in the steady part
      · refine fun before reason after => h.met_failure (by simp [Note.isFailedResume]) ?_
        exact .stopped wasAsked (hresumes ▸ hwhy) (by rw [hrestarts])
      · simp [List.countP_append, List.countP_cons, Note.isFailure, Note.isFailedResume, hfailures,
          hresumes]
      · simp [isLeftByFailure]
      · intro _
        simpa [List.countP_append, List.countP_cons, Note.isLastWord] using hwords
  | broken s h hleft reason why =>
      obtain ⟨hrestarts, hfailures, hresumes, hwords⟩ := h.counts
      constructor
      · simpa [List.countP_append, List.countP_cons, Note.isRestart, hrestarts, Nat.succ_le_iff]
          using hleft
      · refine fun before reason after => h.met_failure (by simp [Note.isFailedResume]) ?_
        exact .broken (hresumes ▸ hleft) why (by rw [hrestarts])
      · simp [List.countP_append, List.countP_cons, Note.isFailure, Note.isFailedResume, hfailures,
          hresumes]
      · simp [isLeftByFailure]
      · intro _
        simpa [List.countP_append, List.countP_cons, Note.isLastWord] using hwords

/-- A life keeps to its budget, whatever it has come to. -/
theorem Life.isBudgeted {most : Nat} {id : AgentId} {c : Pace (Chronicle σ) μ}
    (h : Life most id c) : IsBudgeted most id c := by
  -- only a life that is over has a report, and only while a failure is pending is the count behind
  cases h with
  | going s h books hpoint history =>
      obtain ⟨hrestarts, hfailures, hresumes, -⟩ := h.counts
      constructor
      · exact hrestarts ▸ h.granted_le
      · intro before reason after hsplit
        simpa using h.met_append hsplit []
      · exact ⟨hfailures, .inl hresumes⟩
      · exact h.isLeftByFailure_append.1.symm
      · exact nofun
  | failing s h books hpoint history =>
      obtain ⟨hrestarts, hfailures, hresumes, -⟩ := h.counts
      constructor
      · simpa [List.countP_append, List.countP_cons, Note.isRestart, hrestarts] using h.granted_le
      · exact fun before reason after => h.met_failure nofun (.pending hpoint)
      · refine ⟨?_, .inr ⟨?_, _, hpoint⟩⟩
        · simpa [List.countP_append, List.countP_cons, Note.isFailure] using hfailures
        · simp [List.countP_append, List.countP_cons, Note.isFailedResume, hresumes]
      · simp [isLeftByFailure]
      · exact nofun
  | speaking s h books p history =>
      obtain ⟨hrestarts, hfailures, hresumes, -⟩ := h.counts
      constructor
      · simpa [List.countP_append, List.countP_cons, Note.isRestart, hrestarts] using h.granted_le
      · exact fun before reason after => h.met_quiet (by simp [Note.isFailedResume])
      · refine ⟨?_, .inl ?_⟩
        · simpa [List.countP_append, List.countP_cons, Note.isFailure] using hfailures
        · simpa [List.countP_append, List.countP_cons, Note.isFailedResume] using hresumes
      · simp [isLeftByFailure]
      · exact nofun
  | past h books restarts history => exact h.isBudgeted books restarts history

/-- Whatever an agent answers when it is resumed, however often that is and whatever others do
in between, it keeps to the restart budget of its policy. -/
theorem isBudgeted_run (a : Resident σ μ) {s : σ} {c : Pace (Chronicle σ) μ}
    (hrun : a.noted.Runs Bystanders (.fresh s) c) : IsBudgeted a.policy.budget a.id c :=
  (life_run a hrun).isBudgeted

/-- An agent that fails at every other resume. The world counts its resumes. -/
def moody : Resident Nat Unit where
  behavior := {
    resume := .change (· + 1) fun n =>
      .answer (if n % 2 = 0 then .error "not again" else .ok .yield)
    onStop := .answer (.ok ())
    onRestart := fun n => (n, .ok ()) }
  around := {
    isTerminating := fun _ => false
    isEmpty := fun _ => true
    dequeue := fun n => (n, none)
    register := id
    meanwhile := id
    countFailure := id
    keepReport := fun _ => id
    complete := id }
  policy := .limited 1
  id := ⟨7⟩
  quantum := 5

/-- The success between its two failures does not give the agent its restart back. -/
theorem isBudgeted_moody :
    let c := moody.noted.advance^[24] (.fresh 0)
    IsBudgeted 1 ⟨7⟩ c ∧ c.world.world = 4 ∧ c.world.notes.countP Note.isRestart = 1 ∧
      c.world.failed = 2 ∧ c.world.report = some ⟨⟨7⟩, "not again", 1⟩ := by
  intro c
  refine ⟨isBudgeted_run moody (moody.noted.runs_iterate 24 _), ?_, ?_, ?_, ?_⟩ <;> rfl

end Troupe
