import Troupe.Text.Hex

/-!
# Message identities

A message identity is a number of 128 bits, written as 26 digits of five bits each.
The digits leave out the letters that are easily taken for others; reading accepts
either case, writing uses capitals. Since 26 digits hold 130 bits, the two highest
bits of a text are dropped by reading.

* `value?_digit` — every digit reads back;
* `spelled?_digits` — so does every number, up to the digits it was given.
-/

namespace Troupe

/-- The identity of a message that is passed on from agent to agent. -/
structure MessageId where
  value : Nat
deriving DecidableEq, Repr, Inhabited

namespace MessageId

/-- Why a text is no identity. -/
inductive Malformed where
  /-- The text does not take 26 bytes. -/
  | length
  /-- It has a character that is no digit. -/
  | character
deriving DecidableEq, Repr

def Malformed.text : Malformed → String
  | .length => "invalid length"
  | .character => "invalid character"

/-- The number of digits of an identity. -/
def width : Nat := 26

/-- How many identities there are: two to the power of 128. -/
def count : Nat := 0x100000000000000000000000000000000

/-- The digits, in order of value. -/
def alphabet : List Char := "0123456789ABCDEFGHJKMNPQRSTVWXYZ".toList

/-- The digit for a value below 32. -/
def digit (n : Nat) : Char := alphabet.getD n '0'

/-- A letter in its capital form. -/
def capital (c : Char) : Char :=
  if 'a' ≤ c ∧ c ≤ 'z' then Char.ofNat (c.toNat - 32) else c

/-- The value of a digit of either case. -/
def value? (c : Char) : Option Nat := alphabet.idxOf? (capital c)

/-- The last `width` digits of `n`. -/
def digits : (width n : Nat) → List Char
  | 0, _ => []
  | w + 1, n => digits w (n / 32) ++ [digit (n % 32)]

/-- How many numbers so many digits can spell. -/
def spellings : (width : Nat) → Nat
  | 0 => 1
  | w + 1 => 32 * spellings w

/-- The number that digits spell, after `acc`. -/
def spelled? : (acc : Nat) → List Char → Option Nat
  | acc, [] => some acc
  | acc, c :: rest =>
    match value? c with
    | some v => spelled? (acc * 32 + v) rest
    | none => none

/-- The identity in digits. -/
def text (id : MessageId) : String := String.ofList (digits width id.value)

/-- Reads an identity; a wrong length is found first. -/
def read (s : String) : Except Malformed MessageId :=
  if s.utf8ByteSize = width then
    match spelled? 0 s.toList with
    | some n => .ok ⟨n % count⟩
    | none => .error .character
  else .error .length

/-- The identity as 32 hexadecimal digits. -/
def hex (id : MessageId) : String := String.ofList (Text.Hex.ofNat 32 id.value)

theorem value?_digit (n : Nat) (h : n < 32) : value? (digit n) = some n := by
  have : ∀ n : Fin 32, value? (digit n) = some n.val := by decide
  exact this ⟨n, h⟩

/-- Digits spell the number they came from, modulo their count. -/
theorem spelled?_digits (w n acc : Nat) (rest : List Char) :
    spelled? acc (digits w n ++ rest) = spelled? (acc * spellings w + n % spellings w) rest := by
  induction w generalizing n acc rest with
  | zero => simp [digits, spellings, Nat.mod_one]
  | succ w ih =>
      have hmod : n % 32 < 32 := Nat.mod_lt _ (by decide)
      rw [digits, List.append_assoc, ih]
      simp only [List.singleton_append, spelled?, value?_digit _ hmod]
      congr 1
      have hsplit : n % (32 * spellings w) = n / 32 % spellings w * 32 + n % 32 := by
        rw [Nat.mod_mul]
        omega
      rw [spellings, hsplit, Nat.add_mul, Nat.mul_assoc, Nat.mul_comm (spellings w) 32, Nat.add_assoc]

end MessageId

end Troupe
