/-!
# Places in a text

A text is read from front to back. A cursor is a place in it: what follows, how far it
is from the beginning of the text and of the line, and whether nothing but blanks stands
before it on the line. Line breaks have been made uniform before.

* `pass_rest` — passing characters drops them.
-/

namespace Troupe.Yaml

/-- The characters of a text with one kind of line break; the null character ends it. -/
def unified : List Char → List Char
  | [] => []
  | '\x00' :: _ => []
  | '\r' :: '\n' :: rest => '\n' :: unified rest
  | '\r' :: rest => '\n' :: unified rest
  | c :: rest => c :: unified rest

def isBlank (c : Char) : Bool := c == ' ' || c == '\t'

/-- Whether a character marks collections between brackets. -/
def isBracket (c : Char) : Bool :=
  c == ',' || c == '[' || c == ']' || c == '\x7b' || c == '\x7d'

/-- Whether the line ends here. -/
def endsLine : List Char → Bool
  | [] => true
  | c :: _ => c == '\n'

/-- Whether a word ends here. -/
def endsWord : List Char → Bool
  | [] => true
  | c :: _ => c == '\n' || isBlank c

/-- Whether a mark between documents stands here. -/
def isMark : List Char → Bool
  | '-' :: '-' :: '-' :: rest => endsWord rest
  | '.' :: '.' :: '.' :: rest => endsWord rest
  | _ => false

structure Cursor where
  rest : List Char
  line : Nat := 0
  column : Nat := 0
  index : Nat := 0
  /-- Whether only blanks stand before the place on its line. -/
  fresh : Bool := true

namespace Cursor

/-- Passes a character. -/
def next (p : Cursor) : Cursor :=
  match p.rest with
  | [] => p
  | c :: rest =>
    if c = '\n' then ⟨rest, p.line + 1, 0, p.index + 1, true⟩
    else ⟨rest, p.line, p.column + 1, p.index + 1, p.fresh && isBlank c⟩

/-- Passes so many characters. -/
def pass : Nat → Cursor → Cursor
  | 0, p => p
  | n + 1, p => pass n p.next

/-- Passes characters of a class. -/
def passWhile (p : Cursor) (f : Char → Bool) : Cursor := pass (p.rest.takeWhile f).length p

/-- The characters of a class that follow, and the place after them. -/
def split (p : Cursor) (f : Char → Bool) : List Char × Cursor :=
  (p.rest.takeWhile f, p.passWhile f)

/-- Passes blanks, and a comment that follows them; a comment without blanks before it is
refused. -/
def trail? (p : Cursor) : Option Cursor :=
  match p.rest with
  | '#' :: _ => none
  | _ =>
    let p := p.passWhile isBlank
    match p.rest with
    | '#' :: _ => some (p.passWhile (· != '\n'))
    | _ => some p

/-- Passes the rest of a line without content. -/
def endOfLine? (p : Cursor) : Option Cursor :=
  p.trail?.filter fun p => endsLine p.rest

/-- Whether a mark between documents stands at the beginning of this line. -/
def atMark (p : Cursor) : Bool := p.column == 0 && isMark p.rest

theorem next_rest (p : Cursor) : p.next.rest = p.rest.drop 1 := by
  unfold next
  split
  · next h => simp [h]
  · next c rest h => split <;> simp [h]

theorem pass_rest (n : Nat) (p : Cursor) : (pass n p).rest = p.rest.drop n := by
  induction n generalizing p with
  | zero => rfl
  | succ n ih => rw [pass, ih, next_rest, List.drop_drop, Nat.add_comm]

end Cursor

end Troupe.Yaml
