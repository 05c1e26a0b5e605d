import Mathlib.Data.List.Infix
import Troupe.Quorum

/-!
# When a vote is decided

What happens to a round is a history: votes one after the other, and the moments at
which the waiting side finds its time over. The history says by itself whether the round
is decided and how, without a look at the round.

* `Undecided` — neither the votes nor the deadline have decided;
* `Decides` — what one more occurrence decides;
* `Decided` — the result of the first occurrence that decides;
* `Decided.unique`, `Decided.append` — there is one at most, whatever happens later.
-/

namespace Troupe

namespace Quorum

/-- What can happen to a round. -/
inductive Occurrence (α : Type) where
  /-- A ballot is answered; `none` rejects. -/
  | vote (ballot : Nat) (voter : AgentId) (answer : Option α)
  /-- The waiting side finds its time over. -/
  | expired

variable {α : Type}

namespace Occurrence

def affirmation? : Occurrence α → Option (AgentId × α)
  | .vote _ voter (some response) => some (voter, response)
  | _ => none

def rejection? : Occurrence α → Option AgentId
  | .vote _ voter none => some voter
  | _ => none

def ballot? : Occurrence α → Option Nat
  | .vote ballot _ _ => some ballot
  | .expired => none

end Occurrence

/-- The affirmations in order of arrival. -/
def affirmed (h : List (Occurrence α)) : List (AgentId × α) := h.filterMap (·.affirmation?)

/-- How many have rejected. -/
def rejected (h : List (Occurrence α)) : Nat := (h.filterMap (·.rejection?)).length

/-- The ballots that were answered. -/
def answered (h : List (Occurrence α)) : List Nat := h.filterMap (·.ballot?)

/-- Every answer affirms or rejects. -/
theorem length_answered (h : List (Occurrence α)) :
    (answered h).length = (affirmed h).length + rejected h := by
  induction h with
  | nil => rfl
  | cons x rest ih =>
      rcases x with ⟨ballot, voter, _ | response⟩ | _ <;>
        simp only [answered, affirmed, rejected, List.filterMap_cons, Occurrence.ballot?,
          Occurrence.affirmation?, Occurrence.rejection?, List.length_cons] at ih ⊢ <;>
        omega

/-! ## Decisions -/

/-- Neither the votes nor the deadline have decided among so many participants. -/
structure Undecided (participants threshold : Nat) (h : List (Occurrence α)) : Prop where
  affirmed_lt : (affirmed h).length < threshold
  /-- Those who have not rejected are enough. -/
  rejected_le : rejected h + threshold ≤ participants
  unexpired : .expired ∉ h

/-- What an occurrence decides in a round that is open before it. -/
inductive Decides (participants threshold : Nat) (before : List (Occurrence α)) :
    Occurrence α → Except Fault (Verdict α) → Prop where
  /-- The vote makes the affirmations as many as the threshold asks for. -/
  | carried (ballot : Nat) (voter : AgentId) (response : α)
      (hlast : (affirmed before).length + 1 = threshold) :
      Decides participants threshold before (.vote ballot voter (some response))
        (.ok ⟨affirmed before ++ [(voter, response)], rejected before, participants⟩)
  /-- The vote makes the rejections one more than the round can bear. -/
  | defeated (ballot : Nat) (voter : AgentId)
      (hlast : rejected before + 1 = participants - threshold + 1) :
      Decides participants threshold before (.vote ballot voter none)
        (.error (.quorumFailure (affirmed before).length threshold))
  /-- The time is over. -/
  | lapsed : Decides participants threshold before .expired
      (.error (.quorumFailure (affirmed before).length threshold))

/-- The result of the first occurrence that decides. -/
inductive Decided (participants threshold : Nat) (h : List (Occurrence α))
    (result : Except Fault (Verdict α)) : Prop where
  | intro (before : List (Occurrence α)) (x : Occurrence α) (after : List (Occurrence α))
      (hh : h = before ++ x :: after) (hopen : Undecided participants threshold before)
      (hdecides : Decides participants threshold before x result)

variable {participants threshold : Nat}

theorem undecided_nil (h : 0 < threshold) (h' : threshold ≤ participants) :
    Undecided participants threshold ([] : List (Occurrence α)) :=
  ⟨h, by simpa [rejected] using h', List.not_mem_nil⟩

section Snoc

variable (h : List (Occurrence α)) (ballot : Nat) (voter : AgentId) (response : α)

@[simp] theorem affirmed_snoc_affirmation :
    affirmed (h ++ [.vote ballot voter (some response)]) = affirmed h ++ [(voter, response)] := by
  simp [affirmed, Occurrence.affirmation?]

@[simp] theorem affirmed_snoc_rejection :
    affirmed (h ++ [.vote ballot voter none]) = affirmed h := by
  simp [affirmed, Occurrence.affirmation?]

@[simp] theorem rejected_snoc_affirmation :
    rejected (h ++ [.vote ballot voter (some response)]) = rejected h := by
  simp [rejected, Occurrence.rejection?]

@[simp] theorem rejected_snoc_rejection :
    rejected (h ++ [.vote ballot voter none]) = rejected h + 1 := by
  simp [rejected, Occurrence.rejection?]

@[simp] theorem answered_snoc_vote (answer : Option α) :
    answered (h ++ [.vote ballot voter answer]) = answered h ++ [ballot] := by
  simp [answered, Occurrence.ballot?]

@[simp] theorem answered_snoc_expired : answered (h ++ [.expired]) = answered h := by
  simp [answered, Occurrence.ballot?]

end Snoc

/-- What is open at the end was open all the way. -/
theorem Undecided.of_append {before after : List (Occurrence α)}
    (h : Undecided participants threshold (before ++ after)) :
    Undecided participants threshold before := by
  have hlt := h.affirmed_lt
  have hle := h.rejected_le
  rw [affirmed, List.filterMap_append, List.length_append] at hlt
  rw [rejected, List.filterMap_append, List.length_append] at hle
  refine ⟨?_, ?_, fun hmem => h.unexpired (List.mem_append_left _ hmem)⟩
  · exact Nat.lt_of_le_of_lt (Nat.le_add_right _ _) hlt
  · exact Nat.le_trans (Nat.add_le_add_right (Nat.le_add_right _ _) _) hle

/-- A round is no longer open after what decides it. -/
theorem Decides.closes {before : List (Occurrence α)} {x : Occurrence α}
    {result : Except Fault (Verdict α)} (h : Decides participants threshold before x result) :
    ¬ Undecided participants threshold (before ++ [x]) := by
  intro hopen
  cases h with
  | carried ballot voter response hlast =>
      have hlt := hopen.affirmed_lt
      rw [affirmed_snoc_affirmation, List.length_append, List.length_singleton] at hlt
      omega
  | defeated ballot voter hlast =>
      have hle := hopen.rejected_le
      rw [rejected_snoc_rejection] at hle
      omega
  | lapsed => exact hopen.unexpired (List.mem_append_right _ (List.mem_singleton_self _))

/-- What decides a round decides it in one way. -/
theorem Decides.unique {before : List (Occurrence α)} {x : Occurrence α}
    {result result' : Except Fault (Verdict α)} (h : Decides participants threshold before x result)
    (h' : Decides participants threshold before x result') : result = result' := by
  cases h <;> cases h' <;> rfl

/-- A decided history is not open. -/
theorem Decided.not_undecided {h : List (Occurrence α)} {result : Except Fault (Verdict α)}
    (hd : Decided participants threshold h result) : ¬ Undecided participants threshold h := by
  obtain ⟨before, x, after, rfl, -, hdecides⟩ := hd
  intro hopen
  rw [List.append_cons] at hopen
  exact hdecides.closes hopen.of_append

/-- Whatever happens later, a decision stays what it is. -/
theorem Decided.append {h : List (Occurrence α)} {result : Except Fault (Verdict α)}
    (hd : Decided participants threshold h result) (later : List (Occurrence α)) :
    Decided participants threshold (h ++ later) result := by
  obtain ⟨before, x, after, rfl, hopen, hdecides⟩ := hd
  exact ⟨before, x, after ++ later, by simp, hopen, hdecides⟩

/-- A round is decided by what decides it while it is open. -/
theorem Undecided.decided_snoc {h : List (Occurrence α)}
    (hopen : Undecided participants threshold h) {x : Occurrence α}
    {result : Except Fault (Verdict α)} (hdecides : Decides participants threshold h x result) :
    Decided participants threshold (h ++ [x]) result :=
  ⟨h, x, [], rfl, hopen, hdecides⟩

/-- A history has one decision at most. -/
theorem Decided.unique {h : List (Occurrence α)} {result result' : Except Fault (Verdict α)}
    (hd : Decided participants threshold h result)
    (hd' : Decided participants threshold h result') : result = result' := by
  obtain ⟨before, x, after, hh, hopen, hdecides⟩ := hd
  obtain ⟨before', x', after', hh', hopen', hdecides'⟩ := hd'
  -- neither decision can lie in the open part before the other
  have hnot : ∀ {b y a b' y' a'}, h = b ++ y :: a → h = b' ++ y' :: a' →
      ¬ Undecided participants threshold (b ++ [y]) → Undecided participants threshold b' →
      b'.length ≤ b.length := by
    intro b y a b' y' a' hb hb' hclosed hopen
    by_contra hlonger
    have hprefix : b ++ [y] <+: h := ⟨a, by simp [hb]⟩
    have hprefix' : b' <+: h := ⟨y' :: a', hb'.symm⟩
    obtain ⟨rest, rfl⟩ := List.prefix_of_prefix_length_le hprefix hprefix' (by simp; omega)
    exact hclosed hopen.of_append
  -- so both decisions come at the same place, and one occurrence decides in one way
  have hlength : before.length = before'.length :=
    Nat.le_antisymm (hnot hh' hh hdecides'.closes hopen) (hnot hh hh' hdecides.closes hopen')
  obtain ⟨rfl, hrest⟩ := List.append_inj (hh.symm.trans hh') hlength
  obtain rfl := (List.cons.inj hrest).1
  exact hdecides.unique hdecides'

end Quorum

end Troupe
