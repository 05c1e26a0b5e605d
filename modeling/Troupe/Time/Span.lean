import Troupe.Word

/-!
# Spans of time

A `Span` is a length of time in nanoseconds. The longest one has as many seconds
as the largest 64-bit word, and sums stop there.

* `le_longest` — a saturating sum never exceeds the longest span;
* `saturatingAdd_mono` — longer summands never give a shorter sum.
-/

namespace Troupe

/-- A length of time, in nanoseconds. -/
structure Span where
  nanos : Nat
deriving DecidableEq, Repr, Inhabited

namespace Span

/-- Nanoseconds in a second. -/
def perSecond : Nat := 1000000000

/-- The empty span. -/
def zero : Span := ⟨0⟩

/-- The longest span: `2 ^ 64 - 1` seconds and `999999999` nanoseconds. -/
def longest : Span := ⟨Word.size * perSecond - 1⟩

/-- So many seconds and nanoseconds. -/
def ofParts (secs nanos : Nat) : Span := ⟨secs * perSecond + nanos⟩

/-- So many milliseconds. -/
def ofMillis (n : Nat) : Span := ⟨n * 1000000⟩

/-- So many microseconds. -/
def ofMicros (n : Nat) : Span := ⟨n * 1000⟩

/-- Whole seconds. -/
def secs (s : Span) : Nat := s.nanos / perSecond

/-- Nanoseconds beyond the whole seconds. -/
def subsecNanos (s : Span) : Nat := s.nanos % perSecond

instance : LE Span := ⟨fun a b => a.nanos ≤ b.nanos⟩
instance : LT Span := ⟨fun a b => a.nanos < b.nanos⟩
instance (a b : Span) : Decidable (a ≤ b) := inferInstanceAs (Decidable (a.nanos ≤ b.nanos))
instance (a b : Span) : Decidable (a < b) := inferInstanceAs (Decidable (a.nanos < b.nanos))

/-- Whether nothing of the span is left. -/
def isZero (s : Span) : Bool := s.nanos == 0

/-- The sum, or the longest span when the sum would exceed it. -/
def saturatingAdd (a b : Span) : Span := ⟨min (a.nanos + b.nanos) longest.nanos⟩

/-- The shorter of two spans. -/
def shorter (a b : Span) : Span := ⟨min a.nanos b.nanos⟩

/-- Drops the zeros at the end of a decimal fraction. -/
def trimZeros (digits : List Char) : List Char :=
  (digits.reverse.dropWhile (· == '0')).reverse

/-- The `width` decimal digits of `n`, with leading zeros. -/
def padded (width n : Nat) : List Char :=
  let digits := Nat.toDigits 10 n
  List.replicate (width - digits.length) '0' ++ digits

/-- A whole number of units, the digits of its fraction and the unit's name. -/
def decimal (whole fraction width : Nat) (unit : String) : String :=
  match trimZeros (padded width fraction) with
  | [] => toString whole ++ unit
  | digits => toString whole ++ "." ++ String.ofList digits ++ unit

/-- The span in the largest unit of which it holds at least one, among seconds,
milliseconds, microseconds and nanoseconds, with every digit of its fraction. -/
def text (s : Span) : String :=
  if 0 < s.secs then decimal s.secs s.subsecNanos 9 "s"
  else if 1000000 ≤ s.nanos then decimal (s.nanos / 1000000) (s.nanos % 1000000) 6 "ms"
  else if 1000 ≤ s.nanos then decimal (s.nanos / 1000) (s.nanos % 1000) 3 "µs"
  else decimal s.nanos 0 0 "ns"

theorem le_longest (a b : Span) : a.saturatingAdd b ≤ longest := Nat.min_le_right _ _

theorem saturatingAdd_mono {a a' b b' : Span} (ha : a ≤ a') (hb : b ≤ b') :
    a.saturatingAdd b ≤ a'.saturatingAdd b' := by
  have ha' : a.nanos ≤ a'.nanos := ha
  have hb' : b.nanos ≤ b'.nanos := hb
  show min (a.nanos + b.nanos) _ ≤ min (a'.nanos + b'.nanos) _
  omega

end Span

end Troupe
