import Troupe.Document.Yaml.Cursor
import Troupe.Text.Hex

/-!
# Names, tags and directives

What may stand before a node, and before a document: a name under which the node is
repeated elsewhere, a tag that says what it is, and directives. A tag is a handle, for
which a directive may declare a meaning, and the rest; a tag between angle brackets has
no handle.

* `name?_ne_nil` — a name has characters.
-/

namespace Troupe.Yaml

structure Tag where
  handle : String
  rest : String
deriving DecidableEq, Repr

/-- Whether a character may stand in the name of a node. -/
def isNameChar (c : Char) : Bool :=
  !isBlank c && c != '\n' && !isBracket c && c != '\ufeff'

/-- Reads the name of a node, after its mark. -/
def name? (p : Cursor) : Option (String × Cursor) :=
  let (name, p) := p.next.split isNameChar
  if name.isEmpty then none else some (String.ofList name, p)

/-- Whether a character may stand in a handle or in the name of a directive. -/
def isWordChar (c : Char) : Bool := c.isAlphanum || c == '-' || c == '_'

/-- Whether a character may stand in a whole tag. -/
def isTagChar (c : Char) : Bool :=
  isWordChar c || "#;/?:@&=+$,.!~*'()[]%".toList.contains c

/-- Whether a character may stand in the rest of a tag after its handle. -/
def isShortTagChar (c : Char) : Bool := isTagChar c && !isBracket c && c != '!'

/-- The bytes that a byte at the beginning of a character announces, itself included. -/
def announced? (byte : Nat) : Option Nat :=
  if byte < 0x80 then some 1
  else if 0xc0 ≤ byte ∧ byte < 0xe0 then some 2
  else if 0xe0 ≤ byte ∧ byte < 0xf0 then some 3
  else if 0xf0 ≤ byte ∧ byte < 0xf8 then some 4
  else none

/-- Reads a byte in hexadecimal digits after a percent sign. -/
def byte? (p : Cursor) : Option (Nat × Cursor) :=
  match p.rest with
  | '%' :: a :: b :: _ => (Text.Hex.toNat? [a, b]).map fun n => (n, p.pass 3)
  | _ => none

/-- Reads the bytes that continue a number. -/
def moreBytes? : (count n : Nat) → Cursor → Option (Nat × Cursor)
  | 0, n, p => some (n, p)
  | count + 1, n, p => do
    let (byte, p) ← byte? p
    if 0x80 ≤ byte ∧ byte < 0xc0 then moreBytes? count (n * 0x100 + byte) p else none

/-- Reads a character whose number is given by bytes. -/
def byBytes? (p : Cursor) : Option (Char × Cursor) := do
  let (byte, p) ← byte? p
  let count ← announced? byte
  let (n, p) ← moreBytes? (count - 1) byte p
  if (0xd800 ≤ n ∧ n < 0xe000) ∨ 0x10ffff < n then none else some (Char.ofNat n, p)

/-- Reads a part of a tag. -/
def tagPart? (isPart : Char → Bool) : (fuel : Nat) → (done : List Char) → Cursor →
    Option (List Char × Cursor)
  | 0, _, _ => none
  | fuel + 1, done, p =>
    match p.rest with
    | [] => some (done.reverse, p)
    | c :: _ =>
      if !isPart c then some (done.reverse, p)
      else if c = '%' then
        (byBytes? p).bind fun (c, p) => tagPart? isPart fuel (c :: done) p
      else tagPart? isPart fuel (c :: done) p.next

/-- Splits what begins a tag: the characters after its mark, and whether another mark
closes them to a handle. -/
def splitHandle (p : Cursor) : List Char × Bool × Cursor :=
  let (word, p) := p.next.split isWordChar
  match p.rest with
  | '!' :: _ => (word, true, p.next)
  | _ => (word, false, p)

/-- A handle between its marks. -/
def handleOf (word : List Char) : String := String.ofList ('!' :: word ++ ['!'])

/-- Reads a tag, which a blank or the end of the line has to follow, or a bracket between
brackets. -/
def tag? (inside : Bool) (p : Cursor) : Option (Tag × Cursor) := do
  let fuel := p.rest.length + 1
  let (tag, p) ← match p.rest with
    | '!' :: '<' :: _ => do
      let (rest, p) ← tagPart? isTagChar fuel [] (p.pass 2)
      if p.rest.head? = some '>' then some (Tag.mk "" (String.ofList rest), p.next) else none
    | _ => do
      let (word, closed, p) := splitHandle p
      let (rest, p) ← tagPart? isShortTagChar fuel [] p
      if closed then
        if rest.isEmpty then none else some (Tag.mk (handleOf word) (String.ofList rest), p)
      else
        let whole := word ++ rest
        some (if whole.isEmpty then Tag.mk "" "!" else Tag.mk "!" (String.ofList whole), p)
  if endsWord p.rest || (inside && (p.rest.head?.map isBracket).getD false) then some (tag, p)
  else none

/-! ## Directives -/

inductive Directive where
  | version
  /-- A tag directive declares what a handle stands for. -/
  | handle (handle meaning : String)
  | reserved
deriving DecidableEq, Repr

/-- Reads a number of a version. -/
def versionNumber? (p : Cursor) : Option Cursor :=
  let (digits, p) := p.split Char.isDigit
  if digits.isEmpty || 9 < digits.length then none else some p

/-- Reads a version. -/
def version? (p : Cursor) : Option (Directive × Cursor) := do
  let p ← versionNumber? (p.passWhile isBlank)
  if p.rest.head? = some '.' then (versionNumber? p.next).map fun p => (.version, p) else none

/-- Reads a handle and its meaning. -/
def declaration? (p : Cursor) : Option (Directive × Cursor) := do
  let p := p.passWhile isBlank
  if p.rest.head? ≠ some '!' then none
  else
    let (word, closed, p) := splitHandle p
    if !closed && !word.isEmpty then none
    else
      let handle := if closed then handleOf word else "!"
      let p := p.passWhile isBlank
      let isLocal := p.rest.head? = some '!'
      let start := if isLocal then p.next else p
      let (meaning, after) ← tagPart? isTagChar (start.rest.length + 1) [] start
      let meaning := if isLocal then '!' :: meaning else meaning
      let valid := isLocal || (p.rest.head?.map isShortTagChar).getD false
      if valid && endsWord after.rest then
        some (.handle handle (String.ofList meaning), after)
      else none

/-- Reads a directive with its line. -/
def directive? (p : Cursor) : Option (Directive × Cursor) := do
  let (name, p) := p.next.split isWordChar
  if name.isEmpty || !endsWord p.rest then none
  else
    let (directive, p) ←
      if name = "YAML".toList then version? p
      else if name = "TAG".toList then declaration? p
      else some (.reserved, p.passWhile (· != '\n'))
    let p ← p.endOfLine?
    some (directive, p.next)

theorem name?_ne_nil {p q : Cursor} {name : String} (h : name? p = some (name, q)) :
    name.toList ≠ [] := by
  simp only [name?, Option.ite_none_left_eq_some, Option.some.injEq, Prod.mk.injEq] at h
  obtain ⟨hne, rfl, _⟩ := h
  simpa using hne

end Troupe.Yaml
