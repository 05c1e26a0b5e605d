/-!
# Hexadecimal text

Bytes and words in lower-case hexadecimal digits, most significant first.

* `length_ofNat` — a number takes exactly the digits it is given.
-/

namespace Troupe.Text.Hex

/-- The digit for a value below sixteen. -/
def digit (n : Nat) : Char :=
  if n < 10 then Char.ofNat ('0'.toNat + n) else Char.ofNat ('a'.toNat + (n - 10))

/-- The value of a hexadecimal digit of either case. -/
def value? (c : Char) : Option Nat :=
  if '0' ≤ c ∧ c ≤ '9' then some (c.toNat - '0'.toNat)
  else if 'a' ≤ c ∧ c ≤ 'f' then some (c.toNat - 'a'.toNat + 10)
  else if 'A' ≤ c ∧ c ≤ 'F' then some (c.toNat - 'A'.toNat + 10)
  else none

/-- The last `width` digits of `n`. -/
def ofNat (width n : Nat) : List Char :=
  match width with
  | 0 => []
  | w + 1 => ofNat w (n / 16) ++ [digit (n % 16)]

/-- Every digit of `n`, at least one. -/
def shortest (n : Nat) : List Char := Nat.toDigits 16 n

/-- Two digits a byte. -/
def ofBytes (bytes : List UInt8) : String :=
  String.ofList (bytes.flatMap fun b => ofNat 2 b.toNat)

/-- The number that digits spell, most significant first. -/
def toNat? (digits : List Char) : Option Nat :=
  digits.foldl (fun acc c => do pure ((← acc) * 16 + (← value? c))) (some 0)

/-- The bytes that pairs of digits spell. -/
def toBytes? : List Char → Option (List UInt8)
  | [] => some []
  | [_] => none
  | hi :: lo :: rest => do
    let h ← value? hi
    let l ← value? lo
    let bytes ← toBytes? rest
    pure (UInt8.ofNat (h * 16 + l) :: bytes)

@[simp] theorem length_ofNat (width n : Nat) : (ofNat width n).length = width := by
  induction width generalizing n with
  | zero => rfl
  | succ w ih => simp [ofNat, ih]

end Troupe.Text.Hex
