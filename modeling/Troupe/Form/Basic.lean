import Troupe.Decimal.Nearest
import Troupe.Document.Basic
import Troupe.Text.Hex
import Troupe.Time.Span

/-!
# Fields and simple values

Reading the fields of a table that somebody sent, and writing simple values into one.
A field that is null counts as absent, and a field of the wrong kind as not given.

Spans are written as seconds and nanoseconds and read in milliseconds too; doubles go
by their bit patterns, so that nothing is lost on the way.

* `present?_null` — a null is as good as nothing.
-/

namespace Troupe.Form

open Document (table text truth)

/-! ## Reading -/

/-- A field that is there and not null. -/
def present? (d : Document) (key : String) : Option Document :=
  match d.get? key with
  | some .null => none
  | other => other

/-- The number that a document is; what is below zero is none. -/
def natOf? : Document → Option Nat
  | .whole n => if 0 ≤ n then some n.toNat else none
  | _ => none

/-- The text that a document is. -/
def textOf? : Document → Option String
  | .text s => some s
  | _ => none

/-- The items of a list; nothing else has items. -/
def itemsOf : Document → List Document
  | .list items => items
  | _ => []

def nat? (d : Document) (key : String) : Option Nat := (present? d key).bind natOf?
def natD (d : Document) (key : String) (default : Nat) : Nat := (nat? d key).getD default
def nat0 (d : Document) (key : String) : Nat := natD d key 0
def string? (d : Document) (key : String) : Option String := (present? d key).bind textOf?
def string (d : Document) (key : String) : String := (string? d key).getD ""
def items (d : Document) (key : String) : List Document := ((d.get? key).map itemsOf).getD []
def strings (d : Document) (key : String) : List String := (items d key).filterMap textOf?

/-- A table in a field, empty when there is none. -/
def inner (d : Document) (key : String) : Document := (present? d key).getD .null

/-- A truth value, or `default` where none is given. -/
def flagD (d : Document) (key : String) (default : Bool) : Bool :=
  match d.get? key with
  | some (.truth b) => b
  | _ => default

def flag (d : Document) (key : String) : Bool := flagD d key false

/-- The bytes of a text, or those that hexadecimal digits spell. -/
def bytesOf : Document → List UInt8
  | .text s => s.toUTF8.toList
  | d => (Text.Hex.toBytes? (string d "hex").toList).getD []

/-- A span: milliseconds, seconds with nanoseconds, or a word for the longest one. -/
def spanOf? : Document → Option Span
  | .whole n => some (Span.ofMillis n.natAbs)
  | .text _ => some Span.longest
  | .list [.whole secs, .whole nanos] => some (Span.ofParts secs.natAbs nanos.natAbs)
  | _ => none

def span (d : Document) (key : String) : Span := ((present? d key).bind spanOf?).getD Span.zero

/-- The double that a bit pattern in sixteen digits stands for. -/
def realOf (s : String) : Float :=
  Float.ofBits (UInt64.ofNat ((Text.Hex.toNat? (s.toList.drop 2)).getD 0))

def real? (d : Document) (key : String) : Option Float := (string? d key).map realOf
def realD (d : Document) (key : String) (default : Float) : Float := (real? d key).getD default

mutual

/-- A value as it is passed on: a whole number beyond machine words turns real. -/
def passed : Document → Document
  | .whole n => if -(Word.half : Int) ≤ n ∧ n < Word.size then .whole n else .real (Decimal.ofInt n)
  | .list items => .list (passedItems items)
  | .table rows => .table (passedRows rows)
  | d => d

def passedItems : List Document → List Document
  | [] => []
  | d :: rest => passed d :: passedItems rest

def passedRows : List (String × Document) → List (String × Document)
  | [] => []
  | (key, d) :: rest => (key, passed d) :: passedRows rest

end

/-! ## Writing -/

def nat (n : Nat) : Document := .whole n

def listOf {α : Type} (f : α → Document) (xs : List α) : Document := .list (xs.map f)

def optional {α : Type} (f : α → Document) : Option α → Document
  | some a => f a
  | none => .null

def ofSpan (s : Span) : Document := .list [nat s.secs, nat s.subsecNanos]

/-- A double as its bit pattern. -/
def ofReal (x : Float) : Document :=
  if x.isNaN then text "nan"
  else text ("0x" ++ String.ofList (Text.Hex.ofNat 16 x.toBits.toNat))

/-- The answer of an operation that has nothing to say. -/
def ok : Document := text "ok"

theorem present?_null (key : String) : present? (table [(key, .null)]) key = none := by
  simp [present?, Document.get?, Document.rows, Document.find?]

end Troupe.Form
