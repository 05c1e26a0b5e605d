import Troupe.Document.Path

/-!
# Overlaying documents

Writing a value at a path of a document. A table is merged into what stands at a key,
row by row; any other value replaces it, and so does every value at a place of a list.
Keys are written in lower case, so that sources that differ only in case overlay each
other. What is in the way of a path becomes a table or a list.

* `write_leaf` — what is not a table replaces;
* `length_alterAt` — a list grows to hold the place that is written.
-/

namespace Troupe.Document

/-- The lower case of a character. Beyond the ASCII range only the sign of the kelvin is
changed, because no other character there has a lower case within that range. -/
def lowerChar (c : Char) : Char := if c = '\u212a' then 'k' else c.toLower

/-- A key in lower case. -/
def lower (key : String) : String := String.ofList (key.toList.map lowerChar)

/-- What stands at a key, or an empty table. -/
def entry (key : String) (rows : List (String × Document)) : Document :=
  (find? key rows).getD (table [])

mutual

/-- Writes a value at a key; what is no table becomes one. -/
def write (d : Document) (key : String) (value : Document) : Document :=
  match value with
  | table incoming => table (put (lower key) (writeRows (entry (lower key) d.rows) incoming) d.rows)
  | leaf => table (put (lower key) leaf d.rows)
termination_by sizeOf value

/-- Writes rows one after another. -/
def writeRows (d : Document) (incoming : List (String × Document)) : Document :=
  match incoming with
  | [] => d
  | (key, value) :: rest => writeRows (write d key value) rest
termination_by sizeOf incoming

end

/-- The members of a list; nothing else has members. -/
def members : Document → List Document
  | list items => items
  | _ => []

/-- The place that an index stands for in a list of some length. -/
def placeIn? (length : Nat) (index : Int) : Option Nat :=
  if 0 ≤ index then some index.toNat
  else if index.natAbs ≤ length then some (length - index.natAbs)
  else none

/-- Changes the member at a place; nulls fill a list up to it. -/
def alterAt (place : Nat) (f : Document → Document) (items : List Document) : List Document :=
  (items ++ List.replicate (place + 1 - items.length) null).modify place f

/-- Writes a value at the end of a path. -/
def writeAt (d : Document) : Path → Document → Document
  | [], value => value
  | [.key key], value => d.write key value
  | .key key :: path, value =>
    table (put (lower key) (writeAt (entry (lower key) d.rows) path value) d.rows)
  | .place index :: path, value =>
    match placeIn? d.members.length index with
    | none => d
    | some place => list (alterAt place (fun item => writeAt item path value) d.members)

/-- Overlays the rows of a source, whose keys are paths. -/
def overlay (d : Document) (source : List (String × Document)) : Document :=
  source.foldl (fun d row => d.writeAt (Path.ofText row.1) row.2) d

theorem write_leaf (d : Document) (key : String) (n : Int) :
    d.write key (whole n) = table (put (lower key) (whole n) d.rows) := by
  rw [write]
  intro _ h
  cases h

theorem length_alterAt (place : Nat) (f : Document → Document) (items : List Document) :
    (alterAt place f items).length = max items.length (place + 1) := by
  simp only [alterAt, List.length_modify, List.length_append, List.length_replicate]
  omega

end Troupe.Document
