import Troupe.Decimal.Nearest
import Troupe.Word

/-!
# Doubles from decimals, step by step

The plain way from a decimal to a double: the leading digits that fit a word are made
a double, which is then multiplied or divided by a power of ten. Each of these steps
rounds, so the answer may miss the nearest double in its last places.

* `digits_whole_le`, `digits_fraction_le` — the digits that are taken in fit a word.
-/

namespace Troupe.Decimal

/-- `digits · 10 ^ exponent`. -/
structure Stepwise where
  digits : Nat
  exponent : Int
deriving DecidableEq, Repr

namespace Stepwise

/-- Digits with one more behind them. -/
def appended (digits : Nat) (c : Char) : Nat := digits * 10 + (c.toNat - '0'.toNat)

/-- Takes digits before the point in. From the first that does not fit a word on, they
count as zeros. -/
def whole (digits : Nat) : List Char → Stepwise
  | [] => ⟨digits, 0⟩
  | c :: rest =>
    if appended digits c ≤ Word.last then whole (appended digits c) rest
    else ⟨digits, rest.length + 1⟩

/-- Takes digits after the point in. From the first that does not fit a word on, they do
not count. -/
def fraction (d : Stepwise) : List Char → Stepwise
  | [] => d
  | c :: rest =>
    if appended d.digits c ≤ Word.last then
      fraction ⟨appended d.digits c, d.exponent - 1⟩ rest
    else d

/-- The exponent of the highest power of ten among the doubles. -/
def highest : Nat := 308

/-- The double nearest to a power of ten. -/
def power (n : Nat) : Float := ofNat (Nat.pow 10 n)

/-- A word over a power of ten, which is divided by twice when it is no double; nothing
is left of a word after that. -/
def divided (x : Float) (n : Nat) : Float :=
  if n ≤ highest then x / power n
  else if n ≤ 2 * highest then x / power highest / power (n - highest)
  else 0.0

/-- The double that the steps lead to, unless it is out of range. -/
def toFloat? (d : Stepwise) : Option Float :=
  let x := ofNat d.digits
  if d.exponent < 0 then some (divided x (-d.exponent).toNat)
  else if d.digits = 0 then some 0.0
  else if (highest : Int) < d.exponent then none
  else
    let y := x * power d.exponent.toNat
    if y.isInf then none else some y

theorem digits_whole_le {digits : Nat} (cs : List Char) (h : digits ≤ Word.last) :
    (whole digits cs).digits ≤ Word.last := by
  induction cs generalizing digits with
  | nil => exact h
  | cons c rest ih =>
    rw [whole]
    split
    · next hn => exact ih hn
    · exact h

theorem digits_fraction_le {d : Stepwise} (cs : List Char) (h : d.digits ≤ Word.last) :
    (d.fraction cs).digits ≤ Word.last := by
  induction cs generalizing d with
  | nil => exact h
  | cons c rest ih =>
    rw [fraction]
    split
    · next hn => exact ih hn
    · exact h

end Stepwise

end Troupe.Decimal
