import Troupe.Proofs.Agent.Steps

/-!
# What a step of a turn can be

A step of a turn is one of a few moves, according to where the agent is and to what it sees
when it looks around. Where nobody acts while it looks, each move says what it does to the
world, to the books and to the agent's history.

* `receives` — a receive is refused, or hands a message out, or finds none;
* `moves` — the moves, one for each step that a turn can make;
* `inevitable_ended` — a turn comes to its end, whatever others do meanwhile.
-/

namespace Troupe

namespace Resident

variable {σ μ : Type} {a : Resident σ μ} {c : Pace σ μ}

/-- What a receive can come to. -/
inductive Receives (a : Resident σ μ) (c : Pace σ μ) (next : Option (Envelope μ) → Point σ μ) :
    Pace σ μ → Prop where
  /-- Nothing may be received any more in this turn. -/
  | refused (hbudget : c.books.budget = 0) :
      Receives a c next
        { c with books := { c.books with exhausted := true }, point := next none }
  | handed (hbudget : c.books.budget ≠ 0) (s : σ) (e : Envelope μ)
      (hdequeue : a.around.dequeue c.world = (s, some e)) :
      Receives a c next
        { c with
          world := s
          books := { c.books with
            budget := c.books.budget - 1
            received := c.books.received + 1 }
          point := next (some e)
          history := c.history ++ [.received e] }
  | nothing (hbudget : c.books.budget ≠ 0) (s : σ)
      (hdequeue : a.around.dequeue c.world = (s, none)) :
      Receives a c next
        { c with world := s, books := { c.books with drained := true }, point := next none }

/-- A receive is one of the three. -/
theorem receives (a : Resident σ μ) (c : Pace σ μ) (next : Option (Envelope μ) → Point σ μ) :
    Receives a c next (a.receive c next) := by
  unfold receive
  by_cases hbudget : c.books.budget = 0
  · rw [if_pos hbudget]
    exact .refused hbudget
  · rw [if_neg hbudget]
    rcases hdequeue : a.around.dequeue c.world with ⟨s, _ | e⟩
    · exact .nothing hbudget s hdequeue
    · exact .handed hbudget s e hdequeue

/-- What a step of a turn can be. -/
inductive Moves (a : Resident σ μ) (c : Pace σ μ) : Pace σ μ → Prop where
  /-- There are no resumes left. -/
  | spent (hpoint : c.point = .resuming 0) : Moves a c { c with point := .ended .yield }
  | resumes (left : Nat) (hpoint : c.point = .resuming (left + 1))
      (hmust : a.around.isTerminating c.world = true → a.around.isEmpty c.world = false) :
      Moves a c { c with
        books := { c.books with drained := false }
        point := .running left a.behavior.resume }
  /-- The agent, asked to end, has read its mailbox out or wants to wait. -/
  | stops (hasked : a.around.isTerminating c.world = true)
      (hpoint : (∃ left, c.point = .resuming (left + 1)) ∧ a.around.isEmpty c.world = true ∨
        ∃ left, c.point = .answered left (.ok .wait)) : Moves a c (a.stop c)
  | changes (left : Nat) (f : σ → σ) (next : σ → Program σ μ (Except String Step))
      (hpoint : c.point = .running left (.change f next)) :
      Moves a c { c with world := f c.world, point := .running left (next (f c.world)) }
  | reads (left : Nat) (next : Option (Envelope μ) → Program σ μ (Except String Step))
      (hpoint : c.point = .running left (.receive next)) (c' : Pace σ μ)
      (hreceives : Receives a c (fun e => .running left (next e)) c') : Moves a c c'
  | answers (left : Nat) (answer : Except String Step)
      (hpoint : c.point = .running left (.answer answer)) :
      Moves a c { c with point := .answered left answer }
  | yields (left : Nat) (hpoint : c.point = .answered left (.ok .yield)) :
      Moves a c { c with point := .ended .yield }
  | fails (left : Nat) (reason : String) (hpoint : c.point = .answered left (.error reason))
      (c' : Pace σ μ) (hfailed : Failed a c reason c') : Moves a c c'
  /-- The agent wants to wait, and nobody has asked it to end. -/
  | waits (left : Nat) (hpoint : c.point = .answered left (.ok .wait))
      (hasked : a.around.isTerminating c.world = false) :
      Moves a c { c with point := .waiting left }
  /-- It may not: it is out of budget, and there are messages left. -/
  | hurries (left : Nat) (hpoint : c.point = .waiting left)
      (hmust : c.books.exhausted = true ∧ a.around.isEmpty c.world = false) :
      Moves a c { c with point := .ended .yield }
  | looks (left : Nat) (hpoint : c.point = .waiting left)
      (hmay : c.books.exhausted = true → a.around.isEmpty c.world = true) :
      Moves a c { c with point := .enlisting left }
  | enlists (left : Nat) (hpoint : c.point = .enlisting left) :
      Moves a c { c with world := a.around.register c.world, point := .enlisted left }
  | stays (left : Nat) (hpoint : c.point = .enlisted left)
      (hmust : c.books.drained = true ∧ a.around.isEmpty c.world = false) :
      Moves a c { c with point := .resuming left }
  | parks (left : Nat) (hpoint : c.point = .enlisted left)
      (hmay : c.books.drained = true → a.around.isEmpty c.world = true) :
      Moves a c { c with point := .ended .wait }
  /-- The agent says something in its last word, or hears something. -/
  | adds (f : σ → σ) (next : σ → Program σ μ (Except String Unit))
      (hpoint : c.point = .stopping (.change f next)) :
      Moves a c { c with world := f c.world, point := .stopping (next (f c.world)) }
  | hears (next : Option (Envelope μ) → Program σ μ (Except String Unit))
      (hpoint : c.point = .stopping (.receive next)) (c' : Pace σ μ)
      (hreceives : Receives a c (fun e => .stopping (next e)) c') : Moves a c c'
  /-- The agent is done, or has said its last word. -/
  | finishes (hpoint : (∃ left, c.point = .answered left (.ok .done)) ∨
        ∃ answer, c.point = .stopping (.answer answer)) : Moves a c (a.complete c)

/-- Where nobody acts while the agent looks around, a step of its turn is one of the moves. -/
theorem moves (hstill : ∀ s, a.around.meanwhile s = s) (hon : ∀ ending, c.point ≠ .ended ending) :
    Moves a c (a.step c) := by
  obtain ⟨s, t, restarts, point, history⟩ := c
  -- by where the agent is in its turn, and there by what it finds
  cases point with
  | resuming left =>
      cases left with
      | zero => exact .spent rfl
      | succ left =>
          rw [step_resuming, hstill]
          split
          · next hend =>
              rw [Bool.and_eq_true] at hend
              exact .stops hend.1 (.inl ⟨⟨left, rfl⟩, hend.2⟩)
          · next hgoes =>
              refine .resumes left rfl fun hasked => ?_
              simpa [show a.around.isTerminating s = true from hasked] using hgoes
  | running left rest =>
      cases rest with
      | answer answer => exact .answers left answer rfl
      | change f next => exact .changes left f next rfl
      | receive next => exact .reads left next rfl _ (receives a _ _)
  | answered left answer =>
      have hworld : (⟨a.around.meanwhile s, t, restarts, .answered left answer, history⟩ :
          Pace σ μ) = ⟨s, t, restarts, .answered left answer, history⟩ := by rw [hstill]
      cases answer with
      | error reason =>
          show Moves a _ (a.fail ⟨a.around.meanwhile s, t, restarts, _, history⟩ reason)
          rw [hworld]
          exact .fails left reason rfl _ (a.failed _ reason)
      | ok answer =>
          cases answer with
          | yield =>
              show Moves a _ ⟨a.around.meanwhile s, t, restarts, .ended .yield, history⟩
              rw [hstill]
              exact .yields left rfl
          | done =>
              show Moves a _ (a.complete ⟨a.around.meanwhile s, t, restarts, _, history⟩)
              rw [hworld]
              exact .finishes (.inl ⟨left, rfl⟩)
          | wait =>
              rw [step_wait, hstill]
              split
              · next hasked => exact .stops hasked (.inr ⟨left, rfl⟩)
              · next hasked => exact .waits left rfl (Bool.not_eq_true _ ▸ hasked)
  | waiting left =>
      rw [step_waiting]
      split
      · next hmust => exact .hurries left rfl (by simpa using hmust)
      · next hmay =>
          refine .looks left rfl fun hexhausted => ?_
          simpa [show t.exhausted = true from hexhausted] using hmay
  | enlisting left => exact .enlists left rfl
  | enlisted left =>
      rw [step_enlisted, hstill]
      split
      · next hmust => exact .stays left rfl (by simpa using hmust)
      · next hmay =>
          refine .parks left rfl fun hdrained => ?_
          simpa [show t.drained = true from hdrained] using hmay
  | stopping rest =>
      cases rest with
      | answer answer => exact .finishes (.inr ⟨answer, rfl⟩)
      | change f next => exact .adds f next rfl
      | receive next => exact .hears next rfl _ (receives a _ _)
  | ended ending => exact absurd rfl (hon ending)

/-! ## Every turn ends -/

/-- The turn is over. -/
def IsOver (c : Pace σ μ) : Prop := ∃ ending, c.point = .ended ending

section Ending

variable {others : Pace σ μ → Pace σ μ → Prop}

/-- An agent at a point of its turn makes the step that the point says. -/
theorem Inevitable.of_step (hothers : ∀ c c', others c c' → c'.point = c.point)
    (hstep : ∀ c', c'.point = c.point → a.Inevitable others IsOver (a.step c')) :
    a.Inevitable others IsOver c := by
  -- others leave the agent at its point
  have hsame : ∀ c', Interfering others c c' → c'.point = c.point := by
    intro c' hpath
    induction hpath with
    | refl => rfl
    | tail _ hlast ih => exact (hothers _ _ hlast).trans ih
  cases hpoint : c.point with
  | ended ending => exact .now ⟨ending, hpoint⟩
  | _ =>
      refine .later fun c' hpath => ?_
      have hadvance : a.advance c' = a.step c' := by
        rw [advance, hsame c' hpath, hpoint]
      rw [hadvance]
      exact hstep c' (hsame c' hpath)

variable (hothers : ∀ c c', others c c' → c'.point = c.point)

include hothers

/-- Programs are finite: from the points at which one runs, the agent comes to its answer. -/
theorem inevitable_program {α : Type} (at' : Program σ μ α → Point σ μ)
    (hchange : ∀ c f next, c.point = at' (.change f next) →
      ∃ s, (a.step c).point = at' (next s))
    (hreceive : ∀ c next, c.point = at' (.receive next) → ∃ e, (a.step c).point = at' (next e))
    (hanswer : ∀ c x, c.point = at' (.answer x) → a.Inevitable others IsOver c)
    (p : Program σ μ α) : ∀ c, c.point = at' p → a.Inevitable others IsOver c := by
  -- by induction on the program, of which every step leaves a smaller one
  induction p with
  | answer x => exact fun c => hanswer c x
  | change f next ih =>
      intro c hpoint
      refine .of_step hothers fun c' hc' => ?_
      obtain ⟨s, hs⟩ := hchange c' f next (hc'.trans hpoint)
      exact ih s _ hs
  | receive next ih =>
      intro c hpoint
      refine .of_step hothers fun c' hc' => ?_
      obtain ⟨e, he⟩ := hreceive c' next (hc'.trans hpoint)
      exact ih e _ he

/-- A last word comes to its end. -/
theorem inevitable_stopping (rest : Program σ μ (Except String Unit)) :
    ∀ c, c.point = .stopping rest → a.Inevitable others IsOver c := by
  apply inevitable_program hothers (a := a) .stopping
  · intro c f next hpoint
    exact ⟨f c.world, by rw [step, hpoint]⟩
  · intro c next hpoint
    rw [step, hpoint]
    exact a.receive_point c _
  · intro c x hpoint
    refine .of_step hothers fun c' hc' => .now ⟨.done, ?_⟩
    rw [step, hc', hpoint]
    rfl

theorem inevitable_stop {c : Pace σ μ} : a.Inevitable others IsOver (a.stop c) :=
  inevitable_stopping hothers _ _ rfl

section Waiting

variable {left : Nat} (hresuming : ∀ c, c.point = .resuming left → a.Inevitable others IsOver c)

include hresuming

/-- An agent that has left its waker is put away, or resumed again. -/
theorem inevitable_enlisted : ∀ c, c.point = .enlisted left → a.Inevitable others IsOver c := by
  intro c hpoint
  refine .of_step hothers fun c' hc' => ?_
  rw [step, hc', hpoint]
  dsimp only
  split
  · exact hresuming _ rfl
  · exact .now ⟨.wait, rfl⟩

theorem inevitable_enlisting : ∀ c, c.point = .enlisting left → a.Inevitable others IsOver c := by
  intro c hpoint
  refine .of_step hothers fun c' hc' => ?_
  rw [step, hc', hpoint]
  exact inevitable_enlisted hothers hresuming _ rfl

theorem inevitable_waiting : ∀ c, c.point = .waiting left → a.Inevitable others IsOver c := by
  intro c hpoint
  refine .of_step hothers fun c' hc' => ?_
  rw [step, hc', hpoint]
  dsimp only
  split
  · exact .now ⟨.yield, rfl⟩
  · exact inevitable_enlisting hothers hresuming _ rfl

/-- An agent with an answer ends its turn, is given its last word, or is resumed again. -/
theorem inevitable_answered (answer : Except String Step) :
    ∀ c, c.point = .answered left answer → a.Inevitable others IsOver c := by
  intro c hpoint
  refine .of_step hothers fun c' hc' => ?_
  rw [step, hc', hpoint]
  -- a failure and yielding end the turn, done ends it too, and waiting leads to a look at the
  -- mailbox
  rcases answer with reason | _ | _ | _
  · exact .now ⟨_, rfl⟩
  · exact .now ⟨.yield, rfl⟩
  · dsimp only
    split
    · exact inevitable_stop hothers
    · exact inevitable_waiting hothers hresuming _ rfl
  · exact .now ⟨.done, rfl⟩

/-- A resume comes to its answer, and the turn with it to its end. -/
theorem inevitable_running (rest : Program σ μ (Except String Step)) :
    ∀ c, c.point = .running left rest → a.Inevitable others IsOver c := by
  apply inevitable_program hothers (a := a) (.running left)
  · intro c f next hpoint
    exact ⟨f c.world, by rw [step, hpoint]⟩
  · intro c next hpoint
    rw [step, hpoint]
    exact a.receive_point c _
  · intro c answer hpoint
    refine .of_step hothers fun c' hc' => ?_
    rw [step, hc', hpoint]
    exact inevitable_answered hothers hresuming answer _ rfl

end Waiting

/-- Each resume takes one from those that may still begin. -/
theorem inevitable_resuming (left : Nat) :
    ∀ c, c.point = .resuming left → a.Inevitable others IsOver c := by
  -- by induction on the resumes left: one that is begun leaves one fewer
  induction left with
  | zero =>
      intro c hpoint
      refine .of_step hothers fun c' hc' => .now ⟨.yield, ?_⟩
      rw [step, hc', hpoint]
  | succ left ih =>
      intro c hpoint
      refine .of_step hothers fun c' hc' => ?_
      rw [step, hc', hpoint]
      dsimp only
      split
      · exact inevitable_stop hothers
      · exact inevitable_running hothers ih _ _ rfl

/-- A turn comes to its end, whatever others do meanwhile. -/
theorem inevitable_ended (c : Pace σ μ) : a.Inevitable others IsOver c := by
  have hresuming := fun left => inevitable_resuming (a := a) hothers left
  cases hpoint : c.point with
  | resuming left => exact hresuming left c hpoint
  | running left rest => exact inevitable_running hothers (hresuming left) rest c hpoint
  | answered left answer => exact inevitable_answered hothers (hresuming left) answer c hpoint
  | stopping rest => exact inevitable_stopping hothers rest c hpoint
  | ended ending => exact .now ⟨ending, hpoint⟩
  | waiting left => exact inevitable_waiting hothers (hresuming left) c hpoint
  | enlisting left => exact inevitable_enlisting hothers (hresuming left) c hpoint
  | enlisted left => exact inevitable_enlisted hothers (hresuming left) c hpoint

end Ending

end Resident

end Troupe
