import Mathlib.Data.List.Basic
import Mathlib.Data.List.Chain
import Troupe.Time.Clock

/-!
# Deadlines and the end of the time line

A span that fits on the time line is waited for in full. One that does not is replaced by the
horizon of its instant, which is thirty years, or nothing at all close to the end. So a longer
span has an earlier deadline if it no longer fits and the shorter one, which does, is beyond the
horizon; and a hand-driven clock jumps back when it is moved over the end from there.

* `add?_eq_carried` — instants are added part by part, with a carry;
* `deadlineAfter_eq` — which span is really waited for;
* `deadlineAfter_le_iff` — when the deadline of a longer span is no earlier;
* `now_le_now_advance_iff` — when moving a clock forward moves it forward;
* `deadlines_rise_iff_not_cutShort` — both, for every sequence of moves.
-/

namespace Troupe

namespace Span

theorem le_refl (t : Span) : t ≤ t := Nat.le_refl t.nanos

theorem not_lt {t t' : Span} : ¬ t < t' ↔ t' ≤ t := Nat.not_lt

end Span

namespace Instant

instance : Trans (α := Instant) (· ≤ ·) (· ≤ ·) (· ≤ ·) := ⟨Nat.le_trans⟩

/-- So much later, be the time line over by then or not. -/
def plus (now : Instant) (t : Span) : Instant := ⟨now.nanos + t.nanos⟩

/-- The sum, made from the seconds and the nanoseconds apart. -/
def carried? (now : Instant) (t : Span) : Option Instant :=
  let secs := now.nanos / Span.perSecond + t.secs
  let nanos := now.nanos % Span.perSecond + t.subsecNanos
  if Word.half ≤ secs then none
  else if nanos < Span.perSecond then some ⟨secs * Span.perSecond + nanos⟩
  -- the carry may be what does not fit
  else if Word.half ≤ secs + 1 then none
  else some ⟨(secs + 1) * Span.perSecond + (nanos - Span.perSecond)⟩

/-- The sum of a reading and a span, with its carry, is the sum of the nanoseconds. -/
theorem add?_eq_carried (now : Instant) (t : Span) : now.add? t = now.carried? t := by
  obtain ⟨n⟩ := now
  obtain ⟨d⟩ := t
  unfold carried?
  show (if n + d ≤ 0x8000000000000000 * 1000000000 - 1 then some (mk (n + d)) else none) =
    if 0x8000000000000000 ≤ n / 1000000000 + d / 1000000000 then none
    else if n % 1000000000 + d % 1000000000 < 1000000000 then
      some (mk ((n / 1000000000 + d / 1000000000) * 1000000000 +
        (n % 1000000000 + d % 1000000000)))
    else if 0x8000000000000000 ≤ n / 1000000000 + d / 1000000000 + 1 then none
    else
      some (mk ((n / 1000000000 + d / 1000000000 + 1) * 1000000000 +
        (n % 1000000000 + d % 1000000000 - 1000000000)))
  -- the seconds may overflow by themselves, or by the carry from the nanoseconds
  by_cases hsecs : 0x8000000000000000 ≤ n / 1000000000 + d / 1000000000
  · rw [if_pos hsecs, if_neg (by omega)]
  · rw [if_neg hsecs]
    by_cases hnanos : n % 1000000000 + d % 1000000000 < 1000000000
    · rw [if_pos hnanos, if_pos (by omega)]
      exact congrArg (fun n => some (mk n)) (by omega)
    · rw [if_neg hnanos]
      by_cases hcarry : 0x8000000000000000 ≤ n / 1000000000 + d / 1000000000 + 1
      · rw [if_pos hcarry, if_neg (by omega)]
      · rw [if_neg hcarry, if_pos (by omega)]
        exact congrArg (fun n => some (mk n)) (by omega)

/-- The time line goes on for so long after an instant. -/
def Reaches (now : Instant) (t : Span) : Prop := now.nanos + t.nanos ≤ last.nanos

instance (now : Instant) (t : Span) : Decidable (now.Reaches t) :=
  inferInstanceAs (Decidable (_ ≤ _))

/-- What stands in for a span for which the time line does not go on. -/
def horizon (now : Instant) : Span := if now.Reaches farFuture then farFuture else Span.zero

/-- The span that is waited for when `t` was asked for. -/
def granted (now : Instant) (t : Span) : Span := if now.Reaches t then t else now.horizon

/-- The longer of two spans is replaced by one that is shorter than both. -/
def IsCutShort (now : Instant) (shorter longer : Span) : Prop :=
  now.Reaches shorter ∧ ¬ now.Reaches longer ∧ now.horizon < shorter

instance (now : Instant) (shorter longer : Span) : Decidable (now.IsCutShort shorter longer) :=
  inferInstanceAs (Decidable (_ ∧ _))

theorem Reaches.mono {now : Instant} {t t' : Span} (h : now.Reaches t') (hle : t ≤ t') :
    now.Reaches t := by
  have hle' : t.nanos ≤ t'.nanos := hle
  have h' : now.nanos + t'.nanos ≤ last.nanos := h
  show now.nanos + t.nanos ≤ last.nanos
  omega

end Instant

/-! ## Deadlines -/

/-- A deadline lies after the reading by the span that was granted. -/
theorem deadlineAfter_eq (now : Instant) (t : Span) :
    deadlineAfter now t = now.plus (now.granted t) := by
  by_cases ht : now.Reaches t
  · have hadd : now.add? t = some (now.plus t) := if_pos ht
    rw [deadlineAfter, hadd, Instant.granted, if_pos ht]
  · have hadd : now.add? t = none := if_neg ht
    rw [deadlineAfter, hadd, Instant.granted, if_neg ht, Instant.horizon]
    by_cases hfar : now.Reaches farFuture
    · have hadd : now.add? farFuture = some (now.plus farFuture) := if_pos hfar
      rw [hadd, if_pos hfar, Option.getD_some]
    · have hadd : now.add? farFuture = none := if_neg hfar
      rw [hadd, if_neg hfar, Option.getD_none]
      rfl

/-- Two deadlines set at the same instant stand as the spans waited for. -/
theorem deadlineAfter_le_iff_granted (now : Instant) (t t' : Span) :
    deadlineAfter now t ≤ deadlineAfter now t' ↔ now.granted t ≤ now.granted t' := by
  rw [deadlineAfter_eq, deadlineAfter_eq]
  exact Nat.add_le_add_iff_left

/-- Of two spans the longer one has the earlier deadline exactly if it is cut short. -/
theorem deadlineAfter_le_iff {t t' : Span} (hle : t ≤ t') (now : Instant) :
    deadlineAfter now t ≤ deadlineAfter now t' ↔ ¬ now.IsCutShort t t' := by
  rw [deadlineAfter_le_iff_granted, Instant.granted, Instant.granted]
  by_cases ht' : now.Reaches t'
  · -- if the longer one fits, so does the shorter one
    rw [if_pos ht', if_pos (ht'.mono hle)]
    exact iff_of_true hle fun hcut => hcut.2.1 ht'
  · rw [if_neg ht']
    by_cases ht : now.Reaches t
    · rw [if_pos ht]
      constructor
      · intro hshort hcut
        exact Span.not_lt.mpr hshort hcut.2.2
      · intro hcut
        have hhorizon : ¬ now.horizon < t := fun hlt => hcut ⟨ht, ht', hlt⟩
        exact Span.not_lt.mp hhorizon
    · -- two spans that do not fit have the same deadline
      rw [if_neg ht]
      exact iff_of_true (Span.le_refl _) fun hcut => ht hcut.1

/-! ## A clock moved by hand -/

namespace ManualClock

/-- Moves the clock forward several times. -/
def advanceAll (c : ManualClock) (moves : List Span) : ManualClock := moves.foldl advance c

/-- What the clock shows before, between and after the moves. -/
def readings (c : ManualClock) : List Span → List Instant
  | [] => [c.now]
  | by' :: moves => c.now :: (c.advance by').readings moves

/-- The next move takes the clock over the end of the time line from beyond the horizon. -/
def Overturns (c : ManualClock) (by' : Span) : Prop :=
  c.base.IsCutShort c.offset (c.advance by').offset

instance (c : ManualClock) (by' : Span) : Decidable (c.Overturns by') :=
  inferInstanceAs (Decidable (Instant.IsCutShort _ _ _))

/-- A span that fits on the time line is far from the longest one. -/
theorem le_offset_advance {c : ManualClock} (hfits : c.base.Reaches c.offset) (by' : Span) :
    c.offset ≤ (c.advance by').offset := by
  have hfits' : c.base.nanos + c.offset.nanos ≤ Instant.last.nanos := hfits
  have hlast : Instant.last.nanos ≤ Span.longest.nanos := by decide
  show c.offset.nanos ≤ min (c.offset.nanos + by'.nanos) Span.longest.nanos
  omega

/-- Once it has gone over the end, the clock stays where it is. -/
theorem not_reaches_offset_advance {c : ManualClock} (hbeyond : ¬ c.base.Reaches c.offset)
    (by' : Span) : ¬ c.base.Reaches (c.advance by').offset := by
  have hbeyond' : ¬ c.base.nanos + c.offset.nanos ≤ Instant.last.nanos := hbeyond
  have hlast : Instant.last.nanos < Span.longest.nanos := by decide
  show ¬ c.base.nanos + min (c.offset.nanos + by'.nanos) Span.longest.nanos ≤ Instant.last.nanos
  omega

/-- A clock goes backwards exactly if a move overturns it. -/
theorem now_le_now_advance_iff (c : ManualClock) (by' : Span) :
    c.now ≤ (c.advance by').now ↔ ¬ c.Overturns by' := by
  by_cases hfits : c.base.Reaches c.offset
  · exact deadlineAfter_le_iff (le_offset_advance hfits by') c.base
  · have hafter := not_reaches_offset_advance hfits by'
    show deadlineAfter c.base c.offset ≤ deadlineAfter c.base (c.advance by').offset ↔ _
    rw [deadlineAfter_le_iff_granted, Instant.granted, Instant.granted, if_neg hfits,
      if_neg hafter]
    exact iff_of_true (Span.le_refl _) fun hcut => hfits hcut.1

theorem readings_eq_cons (c : ManualClock) (moves : List Span) :
    ∃ later, c.readings moves = c.now :: later := by
  cases moves with
  | nil => exact ⟨[], rfl⟩
  | cons by' moves => exact ⟨_, rfl⟩

/-- The readings rise as long as no move overturns the clock. -/
theorem isChain_readings_iff (c : ManualClock) (moves : List Span) :
    (c.readings moves).IsChain (· ≤ ·) ↔
      ∀ before by' after, moves = before ++ by' :: after → ¬ (c.advanceAll before).Overturns by' := by
  -- on the moves: a chain is its first link and the chain behind it
  induction moves generalizing c with
  | nil => simp [readings]
  | cons first moves ih =>
      obtain ⟨later, hlater⟩ := readings_eq_cons (c.advance first) moves
      have hstep : (c.readings (first :: moves)).IsChain (· ≤ ·) ↔
          c.now ≤ (c.advance first).now ∧ ((c.advance first).readings moves).IsChain (· ≤ ·) := by
        rw [readings, hlater, List.isChain_cons_cons]
      rw [hstep, now_le_now_advance_iff, ih]
      constructor
      · rintro ⟨hfirst, hrest⟩ before by' after hmoves
        -- the move is the first one or one of the others
        cases before with
        | nil =>
            obtain ⟨rfl, -⟩ := List.cons.inj hmoves
            exact hfirst
        | cons earlier before =>
            obtain ⟨rfl, hmoves'⟩ := List.cons.inj hmoves
            exact hrest before by' after hmoves'
      · intro hall
        refine ⟨hall [] first moves rfl, ?_⟩
        rintro before by' after rfl
        exact hall (first :: before) by' after rfl

end ManualClock

/-- A longer span never has an earlier deadline, and a clock that is moved forward never shows an
earlier instant, exactly as long as nothing is cut short at the end of the time line. -/
theorem deadlines_rise_iff_not_cutShort (now : Instant) {t t' : Span} (hle : t ≤ t')
    (c : ManualClock) (moves : List Span) :
    (deadlineAfter now t ≤ deadlineAfter now t' ↔ ¬ now.IsCutShort t t') ∧
      ((c.readings moves).Pairwise (· ≤ ·) ↔
        ∀ before by' after, moves = before ++ by' :: after →
          ¬ (c.advanceAll before).Overturns by') := by
  constructor
  · exact deadlineAfter_le_iff hle now
  · rw [← List.isChain_iff_pairwise]
    exact c.isChain_readings_iff moves

/-- An hour is no longer than the longest span, its deadline is no later, and a clock that is moved
by the one and then by the other goes forward. -/
theorem deadlines_rise_from_an_hour :
    let dawn : Instant := ⟨0⟩
    let hour : Span := .ofParts 3600 0
    hour ≤ Span.longest ∧ deadlineAfter dawn hour ≤ deadlineAfter dawn Span.longest ∧
      ((⟨dawn, .zero⟩ : ManualClock).readings [hour, Span.longest]).Pairwise (· ≤ ·) := by
  have hle : Span.ofParts 3600 0 ≤ Span.longest := by decide
  obtain ⟨hdeadlines, hreadings⟩ := deadlines_rise_iff_not_cutShort ⟨0⟩ hle ⟨⟨0⟩, .zero⟩
    [.ofParts 3600 0, Span.longest]
  refine ⟨hle, hdeadlines.mpr (by decide), hreadings.mpr ?_⟩
  rintro before by' after hmoves
  match before with
  | [] =>
      obtain ⟨rfl, -⟩ := List.cons.inj hmoves
      decide
  | [_] =>
      obtain ⟨rfl, hrest⟩ := List.cons.inj hmoves
      obtain ⟨rfl, -⟩ := List.cons.inj hrest
      decide
  | _ :: _ :: _ => simp at hmoves

/-- Thirty-one years are waited for in full, but of the longest span there is only thirty years are
left; and a clock that is moved by the one and then by the other jumps back a year. Where the time
line is about to end, the longest span is over at once, and a single nanosecond is not. -/
theorem longest_before_thirty_one_years :
    let dawn : Instant := ⟨0⟩
    let dusk : Instant := ⟨Instant.last.nanos - 1⟩
    let years : Span := .ofParts (60 * 60 * 24 * 365 * 31) 0
    years ≤ Span.longest ∧ deadlineAfter dawn Span.longest < deadlineAfter dawn years ∧
      ¬ ((⟨dawn, .zero⟩ : ManualClock).readings [years, Span.longest]).Pairwise (· ≤ ·) ∧
      deadlineAfter dusk Span.longest = dusk ∧ dusk < deadlineAfter dusk ⟨1⟩ := by
  decide

end Troupe
