import Troupe.Decimal.Nearest
import Troupe.Word

/-!
# Shortest decimals

A double is a number `m · 2 ^ q`. Every real between the midpoints to its two
neighbours reads back as it, the midpoints included when `m` is even. The shortest
decimal for it is looked for on ever finer decimal grids: the first grid on which one
of the two neighbours of the value reads back supplies the digits, and of two such
neighbours the nearer one is taken. Between two that are equally near, the format
decides.

All arithmetic is on natural numbers, in quarters of the last binary place.
-/

namespace Troupe.Decimal

/-- A positive double taken apart: `mantissa · 2 ^ (exponent - bias)`. -/
structure Binary where
  mantissa : Nat
  exponent : Nat
  /-- Whether the neighbour below is only half as far away as the one above. -/
  narrow : Bool
deriving DecidableEq, Repr

namespace Binary

/-- The exponent that stands for a last place of one. -/
def bias : Nat := 1075

/-- How many biased exponents there are. -/
def exponents : Nat := 0x800

/-- Whether the sign bit of a pattern is set. -/
def isNegative (bits : UInt64) : Bool := decide (Word.half ≤ bits.toNat)

/-- The magnitude of a finite double. -/
def ofBits (bits : UInt64) : Binary :=
  let fraction := bits.toNat % leadingBit
  let biased := bits.toNat / leadingBit % exponents
  if biased = 0 then ⟨fraction, 1, false⟩
  else ⟨fraction + leadingBit, biased, fraction = 0 && 1 < biased⟩

/-- Four times the value, as a quotient of naturals. -/
def quarters (b : Binary) (m4 : Nat) : Nat × Nat :=
  if bias ≤ b.exponent then (m4 * Nat.pow 2 (b.exponent - bias), 1)
  else (m4, Nat.pow 2 (bias - b.exponent))

/-- Whether the decimal `digits · 10 ^ (scale - offset)` reads back as `b`. -/
def readsBack (b : Binary) (digits scale offset : Nat) : Bool :=
  let (_, den) := b.quarters 0
  -- midpoints to the neighbours, two quarters away; one, where the neighbour is nearer
  let lower := (b.quarters (if b.narrow then 4 * b.mantissa - 1 else 4 * b.mantissa - 2)).1
  let upper := (b.quarters (4 * b.mantissa + 2)).1
  let point := 4 * digits * Nat.pow 10 scale * den
  let lo := lower * Nat.pow 10 offset
  let hi := upper * Nat.pow 10 offset
  -- a midpoint is read as the even one of the two doubles around it
  if b.mantissa % 2 = 0 then lo ≤ point && point ≤ hi else lo < point && point < hi

/-- The number of decimal places that bring the value to at least one digit before
the point, when it is below one. -/
def leadingZeros (num den : Nat) : (fuel : Nat) → Nat
  | 0 => 0
  | fuel + 1 => if den ≤ num then 0 else leadingZeros (num * 10) den fuel + 1

end Binary

/-- A decimal number `digits · 10 ^ (scale - offset)`, one of `scale` and `offset` zero. -/
structure Digits where
  digits : Nat
  scale : Nat
  offset : Nat
deriving DecidableEq, Repr

/-- Which of two equally near decimals is taken. -/
inductive Tie where
  /-- The greater one in magnitude. -/
  | away
  /-- The one with an even last digit. -/
  | even
deriving DecidableEq, Repr

/-- Whether a value is rounded up that lies `rest` parts of `whole` above `below`. -/
def Tie.roundsUp (tie : Tie) (below rest whole : Nat) : Bool :=
  if 2 * rest = whole then tie = .away || below % 2 = 1 else whole < 2 * rest

namespace Digits

/-- The two grid neighbours of the quotient on the grid with the given place. -/
def nearest? (tie : Tie) (b : Binary) (num den scale offset : Nat) : Option Digits :=
  let top := num * Nat.pow 10 offset
  let bottom := den * Nat.pow 10 scale
  let below := top / bottom
  let rest := top % bottom
  -- zero has no digits to show
  let okBelow := below ≠ 0 && b.readsBack below scale offset
  let okAbove := b.readsBack (below + 1) scale offset
  if okBelow && okAbove then
    some ⟨if tie.roundsUp below rest bottom then below + 1 else below, scale, offset⟩
  else if okBelow then some ⟨below, scale, offset⟩
  else if okAbove then some ⟨below + 1, scale, offset⟩
  else none

/-- Tries grids of one, two and more digits; `places` is the number of digits before
the point and `zeros` the number of zeros right after it. -/
def search (tie : Tie) (b : Binary) (num den places zeros : Nat) :
    (left digits : Nat) → Digits
  | 0, _ => ⟨num / den, 0, 0⟩
  | left + 1, digits =>
    let scale := places - digits
    let offset := if places ≤ digits then digits - places + zeros else 0
    match nearest? tie b num den scale offset with
    | some found => found
    | none => search tie b num den places zeros left (digits + 1)

/-- Drops zeros behind the point, at most `offset` of them, and before it the zero that
a carry to a new place leaves. -/
def trim (digits scale : Nat) : (offset : Nat) → Digits
  | 0 => if digits % 10 = 0 then ⟨digits / 10, scale + 1, 0⟩ else ⟨digits, scale, 0⟩
  | offset + 1 =>
    if digits % 10 = 0 then trim (digits / 10) scale offset else ⟨digits, scale, offset + 1⟩

/-- The fewest digits that read back as a positive double. -/
def shortest (tie : Tie) (b : Binary) : Digits :=
  let (num, den) := b.quarters b.mantissa
  let found :=
    if den ≤ num then search tie b num den (Nat.toDigits 10 (num / den)).length 0 18 1
    else search tie b num den 0 (Binary.leadingZeros num den 400 - 1) 18 1
  trim found.digits found.scale found.offset

end Digits

/-- A decimal in plain positional notation. -/
def Digits.text (d : Digits) : String :=
  let ds := Nat.toDigits 10 d.digits
  let whole := ds.length - d.offset
  if d.offset = 0 then String.ofList (ds ++ List.replicate d.scale '0')
  else if whole = 0 then
    String.ofList (['0', '.'] ++ List.replicate (d.offset - ds.length) '0' ++ ds)
  else String.ofList (ds.take whole ++ ['.'] ++ ds.drop whole)

/-- A double in plain positional notation: the fewest digits that read back, ties away
from zero, no exponent, no point after a whole number. -/
def text (x : Float) : String :=
  let bits := x.toBits
  let sign := if Binary.isNegative bits then "-" else ""
  if x.isNaN then "NaN"
  else if x.isInf then sign ++ "inf"
  else
    let b := Binary.ofBits bits
    if b.mantissa = 0 then sign ++ "0" else sign ++ (Digits.shortest .away b).text

end Troupe.Decimal
