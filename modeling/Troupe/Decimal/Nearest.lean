/-!
# Nearest doubles

The double nearest to a ratio of natural numbers, in exact arithmetic: the quotient is
brought to 53 bits (fewer near zero), rounded, and an exact half goes to the even
neighbour.

* `ofRatio_zero` — nothing over anything is zero.
-/

namespace Troupe.Decimal

/-- The highest of the 53 bits of a mantissa, which the pattern of a double leaves out. -/
def leadingBit : Nat := 0x10000000000000

/-- `num / den` over `2 ^ e`, as a ratio again. -/
def scaled (num den : Nat) (e : Int) : Nat × Nat :=
  if 0 ≤ e then (num, den * Nat.pow 2 e.toNat) else (num * Nat.pow 2 (-e).toNat, den)

/-- The integer nearest to a ratio; a half goes to the even one. -/
def rounded (num den : Nat) : Nat :=
  let q := num / den
  let r := num % den
  if den < 2 * r ∨ (2 * r = den ∧ q % 2 = 1) then q + 1 else q

/-- The binary exponent at which a ratio has 53 bits before the point, or the lowest
exponent there is. -/
def unitOf (num den : Nat) : Int :=
  let guess : Int := max ((num.log2 : Int) - (den.log2 : Int) - 53) (-1074)
  -- the guess may be one too low, never too high
  let (n, d) := scaled num den guess
  if d * (2 * leadingBit) ≤ n then guess + 1 else guess

/-- The bit pattern of a magnitude `m · 2 ^ e` of at most 53 bits, infinity when it is
out of range. A magnitude that was rounded up to 54 bits carries into the exponent. -/
def bitsOf (m : Nat) (e : Int) : Nat :=
  if m < leadingBit then m
  else min ((e + 1075).toNat * leadingBit + (m - leadingBit)) 0x7ff0000000000000

/-- The double nearest to `num / den`. -/
def ofRatio (num den : Nat) : Float :=
  if num = 0 then 0.0
  else
    let e := unitOf num den
    let (n, d) := scaled num den e
    Float.ofBits (UInt64.ofNat (bitsOf (rounded n d) e))

/-- The double nearest to a natural number. -/
def ofNat (n : Nat) : Float := ofRatio n 1

/-- The double nearest to an integer. -/
def ofInt (n : Int) : Float := if n < 0 then -(ofNat n.natAbs) else ofNat n.natAbs

theorem ofRatio_zero (den : Nat) : ofRatio 0 den = 0.0 := rfl

end Troupe.Decimal
