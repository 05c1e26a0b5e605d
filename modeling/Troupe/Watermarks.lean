import Troupe.Fault
import Troupe.Word

/-!
# Watermarks

The sizing of a mailbox: how much it may hold, the length at which backpressure
sets in and the length at which it is lifted again.

* `ofCapacity?_eq_some_iff` — what is derived from a capacity;
* `check_eq_none_iff` — a sizing is accepted exactly when `low < high ≤ capacity`.
-/

namespace Troupe

/-- Capacity, high watermark and low watermark of a mailbox. -/
structure Watermarks where
  capacity : Nat
  high : Nat
  low : Nat
deriving DecidableEq, Repr

namespace Watermarks

/-- The sizing used where none is given. -/
def standard : Watermarks := ⟨1024, 768, 256⟩

instance : Inhabited Watermarks := ⟨standard⟩

/-- Watermarks at a quarter of the triple and at one quarter of a capacity. The high one
is at least one, the low one below it. -/
def ofTriple (capacity triple : Nat) : Watermarks :=
  let high := max (triple / 4) 1
  ⟨capacity, high, min (capacity / 4) (high - 1)⟩

/-- Watermarks at three quarters and one quarter of a capacity. -/
def ofCapacity (capacity : Nat) : Watermarks := ofTriple capacity (capacity * 3)

/-- The same in machine words. The triple is taken before it is divided, so that whoever
derives watermarks from a capacity may break down over it. -/
def ofCapacity? (capacity : Nat) : Option Watermarks :=
  (Word.mul? capacity 3).map (ofTriple capacity)

/-- What is wrong with a sizing; the first of three faults in a fixed order. -/
def check (w : Watermarks) : Option Misuse :=
  if w.capacity = 0 then some .zeroCapacity
  else if w.capacity < w.high then some (.highAboveCapacity w.high w.capacity)
  else if w.high ≤ w.low then some (.lowNotBelowHigh w.low w.high)
  else none

/-- A sizing under which every mailbox operation makes sense. -/
def Valid (w : Watermarks) : Prop := w.low < w.high ∧ w.high ≤ w.capacity

instance (w : Watermarks) : Decidable w.Valid :=
  inferInstanceAs (Decidable (w.low < w.high ∧ w.high ≤ w.capacity))

/-- Accepts a valid sizing. -/
def validate (w : Watermarks) : Except Fault Unit :=
  match w.check with
  | some why => .error (.misuse why)
  | none => .ok ()

/-- Watermarks are derived from the capacities whose triple is a word, and are the exact
quarters. -/
theorem ofCapacity?_eq_some_iff {capacity : Nat} {w : Watermarks} :
    ofCapacity? capacity = some w ↔ capacity * 3 ≤ Word.last ∧ ofCapacity capacity = w := by
  simp only [ofCapacity?, Option.map_eq_some_iff, Word.mul?_eq_some_iff]
  constructor
  · rintro ⟨triple, ⟨hfits, rfl⟩, rfl⟩
    exact ⟨hfits, rfl⟩
  · rintro ⟨hfits, rfl⟩
    exact ⟨_, ⟨hfits, rfl⟩, rfl⟩

/-- A sizing is accepted exactly if it is valid. -/
theorem check_eq_none_iff (w : Watermarks) : w.check = none ↔ w.Valid := by
  unfold check Valid
  split
  · simp; omega
  · split
    · simp; omega
    · split
      · simp; omega
      · simp; omega

end Watermarks

end Troupe
