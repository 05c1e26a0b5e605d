import Troupe.Proofs.Agent.Moves
import Troupe.Proofs.Agent.Tenure

/-!
# Turns that keep to something

An agent and those who serve it in its turn may do nothing but what is of one kind: what changes
no other agent, what is counted, what is noted. Then every step of the turn is of that kind, and if
the kind is closed under doing one thing after the other, so is the turn.

* `Within.step`, `Within.advance` — one step;
* `Within.turn` — what every step of a turn keeps to, the turn keeps to.
-/

namespace Troupe

variable {μ : Type}

namespace Resident

variable {σ : Type} {a : Resident σ μ} {R : σ → σ → Prop} {c c' : Pace σ μ}

/-- All that an agent and those who serve it do in its turn is of one kind. -/
structure Within (R : σ → σ → Prop) (a : Resident σ μ) : Prop where
  refl : ∀ s, R s s
  trans : ∀ {s s' s''}, R s s' → R s' s'' → R s s''
  behavior : a.behavior.Within R
  meanwhile : ∀ s, a.around.meanwhile s = s
  dequeue : ∀ s, R s (a.around.dequeue s).1
  register : ∀ s, R s (a.around.register s)
  countFailure : ∀ s, R s (a.around.countFailure s)
  keepReport : ∀ report s, R s (a.around.keepReport report s)
  complete : ∀ s, R s (a.around.complete s)

/-- Whether a receive finds something or not, it keeps to it. -/
theorem Within.receives (h : a.Within R) {next : Option (Envelope μ) → Point σ μ}
    (hreceives : Receives a c next c') (hnext : ∀ e, (next e).Within R) :
    R c.world c'.world ∧ c'.point.Within R := by
  -- a receive that is refused touches nothing
  cases hreceives with
  | refused _ => exact ⟨h.refl _, hnext none⟩
  | handed _ s e hdequeue =>
      have hworld := h.dequeue c.world
      rw [hdequeue] at hworld
      exact ⟨hworld, hnext (some e)⟩
  | nothing _ s hdequeue =>
      have hworld := h.dequeue c.world
      rw [hdequeue] at hworld
      exact ⟨hworld, hnext none⟩

/-- However a failure is met, all that is done about it is of that kind. -/
theorem Within.failed (h : a.Within R) {reason : String} (hfailed : Failed a c reason c') :
    R c.world c'.world ∧ c'.point.Within R := by
  have hcounted := h.countFailure c.world
  -- a restart comes after the failure was counted
  have hrestarted := h.trans hcounted (h.behavior.onRestart (a.around.countFailure c.world))
  cases hfailed with
  | stopped _ =>
      exact ⟨h.trans (h.trans hcounted (h.keepReport _ _)) (h.complete _), trivial⟩
  | restarted _ _ s hrestart =>
      rw [hrestart] at hrestarted
      exact ⟨hrestarted, trivial⟩
  | broken _ _ s why hrestart =>
      rw [hrestart] at hrestarted
      exact ⟨h.trans (h.trans hrestarted (h.keepReport _ _)) (h.complete _), trivial⟩

/-- A step of a turn is one of the moves, and each of them does one thing at most. -/
theorem Within.step (h : a.Within R) (hpoint : c.point.Within R) :
    R c.world (a.step c).world ∧ (a.step c).point.Within R := by
  -- a turn that is over makes no step
  by_cases hon : ∀ ending, c.point ≠ .ended ending
  · have hmoves := moves h.meanwhile hon
    generalize a.step c = c' at hmoves
    cases hmoves with
    | changes left f next hat =>
        rw [hat] at hpoint
        exact ⟨hpoint.1 c.world, hpoint.2 (f c.world)⟩
    | adds f next hat =>
        rw [hat] at hpoint
        exact ⟨hpoint.1 c.world, hpoint.2 (f c.world)⟩
    | reads left next hat c' hreceives =>
        rw [hat] at hpoint
        exact h.receives hreceives hpoint
    | hears next hat c' hreceives =>
        rw [hat] at hpoint
        exact h.receives hreceives hpoint
    | resumes left _ _ => exact ⟨h.refl _, h.behavior.resume⟩
    | stops _ _ => exact ⟨h.refl _, h.behavior.onStop⟩
    | fails left reason _ c' hfailed => exact h.failed hfailed
    | enlists left _ => exact ⟨h.register _, trivial⟩
    | finishes _ => exact ⟨h.complete _, trivial⟩
    | _ => exact ⟨h.refl _, trivial⟩
  · push Not at hon
    obtain ⟨ending, hended⟩ := hon
    have hstays : a.step c = c := by simp only [Resident.step, hended]
    rw [hstays]
    exact ⟨h.refl _, hpoint⟩

/-- The agent goes on, with a new turn where the last one is over. -/
theorem Within.advance (h : a.Within R) (hpoint : c.point.Within R) :
    R c.world (a.advance c).world ∧ (a.advance c).point.Within R := by
  unfold Resident.advance
  split
  · exact ⟨h.refl _, hpoint⟩
  · exact ⟨h.refl _, trivial⟩
  · exact h.step hpoint

/-- What every step of a turn keeps to, the turn keeps to. -/
theorem Within.turn (h : a.Within R) (s : σ) (restarts : Nat) :
    R s (a.behavior.turn a.around a.policy a.id a.quantum s restarts).world := by
  obtain ⟨history, hturn⟩ := leadsTo_turn (a := a) s restarts []
  -- by induction on the steps, since the relation composes
  have hsteps : ∀ c c' : Pace σ μ, a.LeadsTo c c' → c.point.Within R →
      R c.world c'.world ∧ c'.point.Within R := by
    intro c c' hleads hpoint
    induction hleads with
    | refl => exact ⟨h.refl _, hpoint⟩
    | tail _ hstep ih =>
        subst hstep
        obtain ⟨hworld, hlast⟩ := h.step ih.2
        exact ⟨h.trans ih.1 hworld, hlast⟩
  exact (hsteps _ _ hturn trivial).1

end Resident

end Troupe
