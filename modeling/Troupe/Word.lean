/-!
# Machine words

Sizes and counts that come from outside are words of 64 bits, and one count is a
word of 32 bits. A product that is no word wraps around, or else whoever takes it breaks
down; sums that must not be too large saturate.

* `mul?_eq_some_iff` — a product that is taken is the product, and it is a word;
* `saturate_le` — a saturated count is a word.
-/

namespace Troupe.Word

/-- How many values a word of 64 bits has. -/
def size : Nat := 0x10000000000000000

/-- Half of that: signed words lie below it, and not below its negation. -/
def half : Nat := 0x8000000000000000

/-- The largest word. -/
def last : Nat := size - 1

/-- The largest word of 32 bits. -/
def last32 : Nat := 0xffffffff

/-- The product of two words where it may wrap around. -/
def mul (a b : Nat) : Nat := a * b % size

/-- The product of two words, or a breakdown. -/
def mul? (a b : Nat) : Option Nat := if a * b ≤ last then some (a * b) else none

/-- The word nearest to `n`. -/
def saturate (n : Nat) : Nat := min n last

/-- The successor of a 32-bit count, which stays at its largest value. -/
def next32 (n : Nat) : Nat := min (n + 1) last32

theorem mul?_eq_some_iff {a b product : Nat} :
    mul? a b = some product ↔ a * b ≤ last ∧ a * b = product := by
  unfold mul?
  split
  · next hfits => simp [hfits]
  · next hlarge => simp [hlarge]

theorem saturate_le (n : Nat) : saturate n ≤ last := Nat.min_le_right _ _

theorem saturate_eq {n : Nat} (h : n ≤ last) : saturate n = n := Nat.min_eq_left h

end Troupe.Word
