import Troupe.Decimal.Nearest

/-!
# Decimal literals

A number as it stands in a text: a sign, its digits and a power of ten. `scan?` reads
the longest form of it, `toFloat` gives the nearest double, and `float?` reads a double
that may also be given as a word.

* `toFloat_zero` — a literal without digits other than zero is a zero.
-/

namespace Troupe.Decimal

/-- `± digits · 10 ^ exponent`. -/
structure Literal where
  negative : Bool
  digits : Nat
  exponent : Int
deriving DecidableEq, Repr

namespace Literal

/-- The nearest double; beyond the range of doubles, an infinity or a zero. -/
def toFloat (l : Literal) : Float :=
  let magnitude :=
    if l.digits = 0 then 0.0
    else
      let size : Int := (Nat.toDigits 10 l.digits).length + l.exponent
      -- so far out of range that the powers need not be written down
      if 400 < size then 1.0 / 0.0
      else if size < -400 then 0.0
      else if 0 ≤ l.exponent then ofRatio (l.digits * Nat.pow 10 l.exponent.toNat) 1
      else ofRatio l.digits (Nat.pow 10 (-l.exponent).toNat)
  if l.negative then -magnitude else magnitude

/-- The value of a run of digits that continues `acc`. -/
def natOf (acc : Nat) (digits : List Char) : Nat :=
  digits.foldl (fun n c => n * 10 + (c.toNat - '0'.toNat)) acc

/-- Splits off a sign. -/
def sign : List Char → Bool × List Char
  | '-' :: rest => (true, rest)
  | '+' :: rest => (false, rest)
  | cs => (false, cs)

/-- Reads an exponent, when one follows. -/
def scanExponent (cs : List Char) : Option (Int × List Char) :=
  match cs with
  | c :: rest =>
    if c = 'e' ∨ c = 'E' then
      let (negative, rest) := sign rest
      let digits := rest.takeWhile Char.isDigit
      if digits.isEmpty then none
      else
        let n : Int := natOf 0 digits
        some (if negative then -n else n, rest.dropWhile Char.isDigit)
    else some (0, cs)
  | [] => some (0, [])

/-- Reads digits with an optional point and an optional exponent, after an optional
sign; at least one digit must stand before the exponent. -/
def scan? (cs : List Char) : Option (Literal × List Char) := do
  let (negative, cs) := sign cs
  let whole := cs.takeWhile Char.isDigit
  let rest := cs.dropWhile Char.isDigit
  let (fraction, rest) :=
    match rest with
    | '.' :: tail => (tail.takeWhile Char.isDigit, tail.dropWhile Char.isDigit)
    | _ => ([], rest)
  if whole.isEmpty && fraction.isEmpty then none
  else
    let (e, rest) ← scanExponent rest
    pure (⟨negative, natOf (natOf 0 whole) fraction, e - (fraction.length : Int)⟩, rest)

/-- A text that is one literal and nothing else. -/
def parse? (s : String) : Option Literal :=
  match scan? s.toList with
  | some (l, []) => some l
  | _ => none

/-- The double that a text stands for: a literal, or one of the words for infinity and
for what is no number, in any case and with an optional sign. -/
def float? (s : String) : Option Float :=
  match parse? s with
  | some l => some l.toFloat
  | none =>
    let (negative, cs) := sign s.toList
    let word := String.ofList (cs.map Char.toLower)
    if word = "inf" ∨ word = "infinity" then some (if negative then -1.0 / 0.0 else 1.0 / 0.0)
    else if word = "nan" then some (0.0 / 0.0)
    else none

theorem toFloat_zero (e : Int) : (Literal.mk false 0 e).toFloat = 0.0 := rfl

end Literal

end Troupe.Decimal
