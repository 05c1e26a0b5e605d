import Troupe.Decimal.Literal
import Troupe.Document.Basic
import Troupe.Word

/-!
# Paths into documents

A path leads from a document to a value inside it, through the keys of tables and the
places of lists. Written, keys have points between them and places stand in brackets,
as in `workers[0].name`; a place below zero is counted from the end of its list. A text
that is not written like this is one key.

* `ofText_empty` — so is the empty text.
-/

namespace Troupe.Document

/-- A step of a path. -/
inductive PathStep where
  | key (name : String)
  | place (index : Int)
deriving DecidableEq, Repr

abbrev Path := List PathStep

namespace Path

/-- Whether a character may stand in a key of a path. -/
def isKeyChar (c : Char) : Bool := c.isAlphanum || c == ' ' || c == '_' || c == '-'

def isBlank (c : Char) : Bool := c == ' ' || c == '\t'

/-- Reads a key. -/
def key? (cs : List Char) : Option (PathStep × List Char) :=
  let name := cs.takeWhile isKeyChar
  if name.isEmpty then none else some (.key (String.ofList name), cs.dropWhile isKeyChar)

/-- Reads a place, after the opening bracket: a signed word between blanks. -/
def place? (cs : List Char) : Option (PathStep × List Char) :=
  let (negative, ds) := match cs.dropWhile isBlank with
    | '-' :: ds => (true, ds)
    | ds => (false, ds)
  let n : Int := Decimal.Literal.natOf 0 (ds.takeWhile Char.isDigit)
  let n := if negative then -n else n
  match (ds.dropWhile Char.isDigit).dropWhile isBlank with
  | ']' :: rest =>
    if (ds.takeWhile Char.isDigit).isEmpty || n < -(Word.half : Int) || (Word.half : Int) ≤ n then
      none
    else some (.place n, rest)
  | _ => none

/-- Reads the steps after the first. -/
def steps? : (fuel : Nat) → List Char → Option Path
  | 0, _ => none
  | fuel + 1, cs =>
    match cs with
    | [] => some []
    | '.' :: rest => (key? rest).bind fun (step, rest) => (steps? fuel rest).map (step :: ·)
    | '[' :: rest => (place? rest).bind fun (step, rest) => (steps? fuel rest).map (step :: ·)
    | _ => none

/-- The path that a text stands for. -/
def ofText (s : String) : Path :=
  let path := do
    let (first, rest) ← key? s.toList
    (steps? (rest.length + 1) rest).map (first :: ·)
  path.getD [.key s]

theorem ofText_empty : ofText "" = [.key ""] := rfl

end Path

end Troupe.Document
