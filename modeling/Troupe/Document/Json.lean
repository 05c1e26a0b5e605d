import Troupe.Decimal.Literal
import Troupe.Decimal.Shortest
import Troupe.Decimal.Stepwise
import Troupe.Document.Basic
import Troupe.Text.Hex
import Troupe.Text.Shown

/-!
# JSON

Reading a JSON text into a document, and writing a document compactly with the keys of
every table in ascending order. A later row of a repeated key replaces the earlier one.
A number without fraction and exponent is whole if it fits a word, negative ones a signed
word; all others are real, and so is the negative zero.

Lists and tables may stand inside each other up to a limit. Reading takes fuel besides;
`read?` gives it one unit per character, which suffices because every step consumes a
character.
-/

namespace Troupe.Json

/-- The blanks between tokens. -/
def isBlank (c : Char) : Bool := c == ' ' || c == '\n' || c == '\t' || c == '\r'

def skip (cs : List Char) : List Char := cs.dropWhile isBlank

/-- Reads four hexadecimal digits. -/
def unit? : List Char → Option (Nat × List Char)
  | a :: b :: c :: d :: rest => (Text.Hex.toNat? [a, b, c, d]).map fun n => (n, rest)
  | _ => none

/-- Reads a character given by number, after the backslash and the letter; a character
beyond the first plane takes two numbers. -/
def numbered? (cs : List Char) : Option (Char × List Char) := do
  let (n, rest) ← unit? cs
  if 0xd800 ≤ n ∧ n < 0xdc00 then
    match rest with
    | '\\' :: 'u' :: more =>
      let (m, rest) ← unit? more
      if 0xdc00 ≤ m ∧ m < 0xe000 then
        some (Char.ofNat (0x10000 + (n - 0xd800) * 0x400 + (m - 0xdc00)), rest)
      else none
    | _ => none
  else if 0xdc00 ≤ n ∧ n < 0xe000 then none
  else some (Char.ofNat n, rest)

/-- The character that a letter after a backslash stands for. -/
def shorthand? : Char → Option Char
  | '"' => some '"'
  | '\\' => some '\\'
  | '/' => some '/'
  | 'b' => some '\x08'
  | 'f' => some '\x0c'
  | 'n' => some '\n'
  | 'r' => some '\r'
  | 't' => some '\t'
  | _ => none

/-- Reads the rest of a string, after `done` characters in reverse. -/
def string? : (fuel : Nat) → (done : List Char) → List Char → Option (String × List Char)
  | 0, _, _ => none
  | fuel + 1, done, cs =>
    match cs with
    | '"' :: rest => some (String.ofList done.reverse, rest)
    | '\\' :: 'u' :: rest =>
      match numbered? rest with
      | some (c, rest) => string? fuel (c :: done) rest
      | none => none
    | '\\' :: c :: rest =>
      match shorthand? c with
      | some c => string? fuel (c :: done) rest
      | none => none
    | c :: rest => if c.toNat < 0x20 then none else string? fuel (c :: done) rest
    | [] => none

/-- Splits a run of digits off. -/
def digits (cs : List Char) : List Char × List Char :=
  (cs.takeWhile Char.isDigit, cs.dropWhile Char.isDigit)

/-- Reads a fraction, when a point follows. -/
def fraction? : List Char → Option (Option (List Char) × List Char)
  | '.' :: rest =>
    let (ds, rest) := digits rest
    if ds.isEmpty then none else some (some ds, rest)
  | cs => some (none, cs)

/-- Reads an exponent, when one follows. -/
def exponent? : List Char → Option (Option Int × List Char)
  | c :: rest =>
    if c = 'e' ∨ c = 'E' then
      let (negative, rest) := Decimal.Literal.sign rest
      let (ds, rest) := digits rest
      if ds.isEmpty then none
      else
        let n : Int := Decimal.Literal.natOf 0 ds
        some (some (if negative then -n else n), rest)
    else some (none, c :: rest)
  | [] => some (none, [])

/-- The number that a sign, digits, a fraction and an exponent make, if it is in range. -/
def numberOf? (negative : Bool) (whole : List Char) (fraction : Option (List Char))
    (exponent : Option Int) : Option Document :=
  let n := Decimal.Literal.natOf 0 whole
  let plain := fraction.isNone && exponent.isNone
  if plain && negative && 0 < n && n ≤ Word.half then some (.whole (-(n : Int)))
  else if plain && !negative && n ≤ Word.last then some (.whole n)
  else
    let d := (Decimal.Stepwise.whole 0 whole).fraction (fraction.getD [])
    let x := Decimal.Stepwise.toFloat? { d with exponent := d.exponent + exponent.getD 0 }
    x.map fun x => .real (if negative then -x else x)

/-- Reads a number; a zero stands alone before the point. -/
def number? (cs : List Char) : Option (Document × List Char) := do
  let (negative, cs) := match cs with
    | '-' :: rest => (true, rest)
    | _ => (false, cs)
  let (whole, rest) := digits cs
  match whole with
  | [] => none
  | '0' :: _ :: _ => none
  | _ =>
    let (fraction, rest) ← fraction? rest
    let (exponent, rest) ← exponent? rest
    let d ← numberOf? negative whole fraction exponent
    some (d, rest)

/-- Reads a given word. -/
def word? (word : String) (d : Document) (cs : List Char) : Option (Document × List Char) :=
  if word.toList.isPrefixOf cs then some (d, cs.drop word.length) else none

/-- How deep lists and tables may stand inside each other. -/
def depthLimit : Nat := 127

mutual

/-- Reads a value that starts here; `room` is how much deeper it may go. -/
def value? : (fuel room : Nat) → List Char → Option (Document × List Char)
  | 0, _, _ => none
  | fuel + 1, room, cs =>
    match cs with
    | '\x7b' :: rest =>
      match room, skip rest with
      | 0, _ => none
      | _, '\x7d' :: rest => some (.table [], rest)
      | room + 1, rest => row? fuel room [] rest
    | '[' :: rest =>
      match room, skip rest with
      | 0, _ => none
      | _, ']' :: rest => some (.list [], rest)
      | room + 1, rest => item? fuel room [] rest
    | '"' :: rest => (string? (rest.length + 1) [] rest).map fun (s, rest) => (.text s, rest)
    | 't' :: _ => word? "true" (.truth true) cs
    | 'f' :: _ => word? "false" (.truth false) cs
    | 'n' :: _ => word? "null" .null cs
    | _ => number? cs

/-- Reads the items of a list, after `done` items in reverse. -/
def item? : (fuel room : Nat) → (done : List Document) → List Char →
    Option (Document × List Char)
  | 0, _, _, _ => none
  | fuel + 1, room, done, cs =>
    match value? fuel room (skip cs) with
    | none => none
    | some (d, rest) =>
      match skip rest with
      | ',' :: rest => item? fuel room (d :: done) rest
      | ']' :: rest => some (.list (d :: done).reverse, rest)
      | _ => none

/-- Reads the rows of a table. -/
def row? : (fuel room : Nat) → (done : List (String × Document)) → List Char →
    Option (Document × List Char)
  | 0, _, _, _ => none
  | fuel + 1, room, done, cs =>
    match skip cs with
    | '"' :: rest =>
      match string? (rest.length + 1) [] rest with
      | none => none
      | some (key, rest) =>
        match skip rest with
        | ':' :: rest =>
          match value? fuel room (skip rest) with
          | none => none
          | some (d, rest) =>
            match skip rest with
            | ',' :: rest => row? fuel room (Document.put key d done) rest
            | '\x7d' :: rest => some (.table (Document.put key d done), rest)
            | _ => none
        | _ => none
    | _ => none

end

/-- Reads a text that is one value. -/
def read? (s : String) : Option Document :=
  let cs := s.toList
  match value? (cs.length + 1) depthLimit (skip cs) with
  | some (d, rest) => if (skip rest).isEmpty then some d else none
  | none => none

/-- How a character is written inside a string. -/
def escaped (c : Char) : List Char :=
  match c with
  | '"' => ['\\', '"']
  | '\\' => ['\\', '\\']
  | '\n' => ['\\', 'n']
  | '\r' => ['\\', 'r']
  | '\t' => ['\\', 't']
  | '\x08' => ['\\', 'b']
  | '\x0c' => ['\\', 'f']
  | c => if c.toNat < 0x20 then ['\\', 'u'] ++ Text.Hex.ofNat 4 c.toNat else [c]

/-- A string between its quotes. -/
def quoted (s : String) : String :=
  String.ofList ('"' :: s.toList.flatMap escaped ++ ['"'])

/-- Digits and the place of the point among them, counted from the front: positional
from `10 ^ -5` on and below `10 ^ 16`, with a signed exponent elsewhere. -/
def positioned (ds : List Char) (point : Int) : List Char :=
  let length : Int := ds.length
  if length ≤ point ∧ point ≤ 16 then
    ds ++ List.replicate (point - length).toNat '0' ++ ['.', '0']
  else if 0 < point ∧ point ≤ 16 then ds.take point.toNat ++ ['.'] ++ ds.drop point.toNat
  else if -5 < point ∧ point ≤ 0 then ['0', '.'] ++ List.replicate (-point).toNat '0' ++ ds
  else
    let exponent := 'e' :: (if 0 < point then ['+'] else []) ++ (toString (point - 1)).toList
    match ds with
    | [d] => d :: exponent
    | d :: rest => d :: '.' :: rest ++ exponent
    | [] => exponent

/-- A real number: the fewest digits that read back, never without a point or an
exponent. What is no number, or infinite, is null. -/
def real (x : Float) : String :=
  let bits := x.toBits
  let b := Decimal.Binary.ofBits bits
  let sign := if Decimal.Binary.isNegative bits then "-" else ""
  if x.isNaN || x.isInf then "null"
  else if b.mantissa = 0 then sign ++ "0.0"
  else
    let d := Decimal.Digits.shortest .even b
    let ds := Nat.toDigits 10 d.digits
    sign ++ String.ofList (positioned ds (ds.length + (d.scale : Int) - d.offset))

mutual

/-- The compact text of a value. -/
def write : Document → String
  | .null => "null"
  | .truth b => Text.truth b
  | .whole n => toString n
  | .real x => real x
  | .text s => quoted s
  | .list items => "[" ++ Text.joined "," (writeItems items) ++ "]"
  | .table rows =>
    let written := (writeRows rows).mergeSort fun a b => !decide (b.1 < a.1)
    "\x7b" ++ Text.joined "," (written.map fun row => quoted row.1 ++ ":" ++ row.2) ++ "\x7d"

def writeItems : List Document → List String
  | [] => []
  | d :: rest => write d :: writeItems rest

def writeRows : List (String × Document) → List (String × String)
  | [] => []
  | (key, d) :: rest => (key, write d) :: writeRows rest

end

end Troupe.Json
