import Troupe.Document.Yaml.Node
import Troupe.Document.Yaml.Property
import Troupe.Word

/-!
# Values of scalars

A plain scalar stands for a null, a truth value, a number or else for itself; a tag of
the standard collection says which of these it has to be, and a scalar that cannot be it
misfits.

* `ofText_empty` — nothing at all is a text, not null.
-/

namespace Troupe.Yaml

namespace Plain

/-- A signed word in digits of a base, after an optional sign. -/
def wordIn? (base : Nat) (cs : List Char) : Option Int :=
  let (negative, ds) := Decimal.Literal.sign cs
  let value : Option Nat := ds.foldl (fun acc c => do
    let n ← acc
    let v ← Text.Hex.value? c
    if v < base then some (n * base + v) else none) (some 0)
  match ds, value with
  | [], _ => none
  | _, none => none
  | _, some n =>
    let n : Int := if negative then -(n : Int) else n
    if -(Word.half : Int) ≤ n ∧ n < Word.half then some n else none

/-- A whole number: in a base that a letter names, or decimal, with up to two signs of
which the first is a plus. -/
def whole? (cs : List Char) : Option Int :=
  match cs with
  | '0' :: 'x' :: ds => wordIn? 16 ds
  | '0' :: 'o' :: ds => wordIn? 8 ds
  | '+' :: rest => wordIn? 10 rest
  | _ => wordIn? 10 cs

/-- The words with a point for infinity and for what is no number. -/
def isPointed (s : String) : Bool :=
  [".inf", ".Inf", ".INF", "+.inf", "+.Inf", "+.INF", "-.inf", "-.Inf", "-.INF", ".nan",
    ".NAN"].contains s

def truth? (s : String) : Option Bool :=
  if s = "true" then some true else if s = "false" then some false else none

def isNull (s : String) : Bool := s == "~" || s == "null"

/-- Whether a text stands for a real number. -/
def isReal (s : String) : Bool := isPointed s || (Decimal.Literal.float? s).isSome

/-- The value of a plain scalar without a tag. -/
def ofText (s : String) : Node :=
  if isNull s then .null
  else
    match truth? s, whole? s.toList with
    | some b, _ => .truth b
    | _, some n => .whole n
    | _, _ => if isReal s then .real s else .text s

/-- The handle of the standard collection of tags, as it is declared at first. -/
def standard : String := "tag:yaml.org,2002:"

/-- The value of a plain scalar with a tag whose handle has its meaning. -/
def ofTagged (t : Tag) (s : String) : Node :=
  if t.handle ≠ standard then .text s
  else
    match t.rest with
    | "bool" => ((truth? s).map Node.truth).getD .misfit
    | "int" => ((wordIn? 10 s.toList).map Node.whole).getD .misfit
    | "float" => if isReal s then .real s else .misfit
    | "null" => if isNull s then .null else .misfit
    | _ => .text s

theorem ofText_empty : ofText "" = .text "" := rfl

end Plain

end Troupe.Yaml
