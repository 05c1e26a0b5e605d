import Mathlib.Data.List.Basic
import Mathlib.Data.List.Induction

/-!
# Histories

A history is a list of what happened, oldest first, and grows at its end. Two ways to speak of one
have a rule for the event that is added last:

* `since_snoc` — what began and has not ended since, which can be decided;
* `Throughout.snoc` — what holds of every event and of the history before it.
-/

namespace Troupe

variable {β : Type}

/-- Something began, and nothing since has ended it. -/
def Since (begins ends : β → Prop) (history : List β) : Prop :=
  ∃ earlier x later, history = earlier ++ x :: later ∧ begins x ∧ ∀ y ∈ later, ¬ ends y

/-- Every event obeys a rule, which may speak of what happened before. -/
def Throughout (rule : List β → β → Prop) (history : List β) : Prop :=
  ∀ earlier x later, history = earlier ++ x :: later → rule earlier x

/-- The last entry of a list is at the end of every splitting, or behind its pivot. -/
theorem snoc_eq_append_cons {α : Type} {xs before after : List α} {last x : α}
    (h : xs ++ [last] = before ++ x :: after) :
    (after = [] ∧ xs = before ∧ last = x) ∨
      ∃ rest, after = rest ++ [last] ∧ xs = before ++ x :: rest := by
  rcases List.eq_nil_or_concat after with rfl | ⟨rest, final, rfl⟩
  · obtain ⟨hxs, hlast⟩ := List.append_inj' h rfl
    exact Or.inl ⟨rfl, hxs, List.head_eq_of_cons_eq hlast⟩
  · have hsnoc : xs ++ [last] = (before ++ x :: rest) ++ [final] := by simpa using h
    obtain ⟨hxs, hlast⟩ := List.append_inj' hsnoc rfl
    exact Or.inr ⟨rest, by simp [List.head_eq_of_cons_eq hlast], hxs⟩

/-- What a history shows when an event was added to it. -/
theorem filterMap_snoc {γ : Type} (f : β → Option γ) (history : List β) (y : β) :
    (history ++ [y]).filterMap f = history.filterMap f ++ (f y).toList := by
  rw [List.filterMap_append]
  cases hy : f y <;> simp [hy]

section Since

variable {begins ends : β → Prop}

theorem not_since_nil : ¬ Since begins ends [] := by
  rintro ⟨earlier, x, later, h, -⟩
  simp at h

/-- The event that is added last begins it, or lets it go on, or ends it. -/
theorem since_snoc {history : List β} {y : β} :
    Since begins ends (history ++ [y]) ↔ begins y ∨ Since begins ends history ∧ ¬ ends y := by
  constructor
  · rintro ⟨earlier, x, later, h, hbegins, hlater⟩
    -- what began is the last event, or came before it and outlived it
    rcases snoc_eq_append_cons h with ⟨rfl, rfl, rfl⟩ | ⟨rest, rfl, rfl⟩
    · exact .inl hbegins
    · refine .inr ⟨⟨earlier, x, rest, rfl, hbegins, fun z hz => ?_⟩, ?_⟩
      · exact hlater z (List.mem_append_left _ hz)
      · exact hlater y (List.mem_append_right _ (List.mem_singleton_self y))
  · rintro (hbegins | ⟨⟨earlier, x, later, rfl, hbegins, hlater⟩, hy⟩)
    · exact ⟨history, y, [], rfl, hbegins, fun _ hz => nomatch hz⟩
    · refine ⟨earlier, x, later ++ [y], by simp, hbegins, fun z hz => ?_⟩
      rcases List.mem_append.mp hz with hz | hz
      · exact hlater z hz
      · rwa [List.mem_singleton.mp hz]

/-- A history is read once, from its beginning. -/
theorem since_iff_foldl [DecidablePred begins] [DecidablePred ends] (history : List β) :
    Since begins ends history ↔
      history.foldl (fun holds x => decide (begins x) || holds && !decide (ends x)) false = true := by
  induction history using List.reverseRecOn with
  | nil => exact iff_of_false not_since_nil Bool.false_ne_true
  | append_singleton history y ih => simp [since_snoc, ih]

instance [DecidablePred begins] [DecidablePred ends] (history : List β) :
    Decidable (Since begins ends history) :=
  decidable_of_iff' _ (since_iff_foldl history)

end Since

section Throughout

variable {rule : List β → β → Prop}

theorem throughout_nil : Throughout rule [] := by
  intro earlier x later h
  simp at h

/-- Only the event that is added last has to be looked at. -/
theorem Throughout.snoc {history : List β} (h : Throughout rule history) {y : β}
    (hy : rule history y) : Throughout rule (history ++ [y]) := by
  intro earlier x later hsplit
  rcases snoc_eq_append_cons hsplit with ⟨rfl, rfl, rfl⟩ | ⟨rest, rfl, rfl⟩
  · exact hy
  · exact h earlier x rest rfl

end Throughout

end Troupe
