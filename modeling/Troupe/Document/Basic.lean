/-!
# Documents

A document is a tree of values as the common text formats have it. Tables are lists
of rows; reading a format decides what repeated keys mean, so a table that came out
of a reader has none.

* `get?_put_self` — a written row is the row that is found.
-/

namespace Troupe

/-- A value of a text format. -/
inductive Document where
  | null
  | truth (b : Bool)
  | whole (n : Int)
  | real (x : Float)
  | text (s : String)
  | list (items : List Document)
  | table (rows : List (String × Document))

namespace Document

instance : Inhabited Document := ⟨null⟩

/-- The value of the first row with a key. -/
def find? (key : String) : List (String × Document) → Option Document
  | [] => none
  | (k, v) :: rest => if k = key then some v else find? key rest

/-- Writes a row in place when the key has one, at the end otherwise. -/
def put (key : String) (value : Document) : List (String × Document) → List (String × Document)
  | [] => [(key, value)]
  | (k, v) :: rest => if k = key then (key, value) :: rest else (k, v) :: put key value rest

/-- The rows of a table; nothing else has rows. -/
def rows : Document → List (String × Document)
  | table rows => rows
  | _ => []

/-- The value at a key of a table. -/
def get? (d : Document) (key : String) : Option Document := find? key d.rows

/-- Whether a document is a table. -/
def isTable : Document → Bool
  | table _ => true
  | _ => false

theorem find?_put_self (key : String) (value : Document) (rows : List (String × Document)) :
    find? key (put key value rows) = some value := by
  induction rows with
  | nil => simp [put, find?]
  | cons row rest ih =>
      by_cases h : row.1 = key
      · simp [put, find?, h]
      · simp [put, find?, h, ih]

theorem get?_put_self (key : String) (value : Document) (rows : List (String × Document)) :
    (table (put key value rows)).get? key = some value :=
  find?_put_self key value rows

end Document

end Troupe
