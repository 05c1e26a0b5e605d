import Troupe.Decimal.Literal
import Troupe.Document.Basic

/-!
# Nodes

The nodes of a text: scalars, sequences and mappings. A number that is not whole is kept
as it is written, and keys may be any nodes; only the document that a node stands for
asks numbers for values and keys for names.

A mapping comes as the nodes in it, one after another. A node that misfits cannot be a
key: the node after it takes its place.

* `pairUp_pair` — a key and a value make a row;
* `pairUp_misfit` — in the place of a key a misfit goes unnoticed.
-/

namespace Troupe.Yaml

inductive Node where
  | null
  | truth (b : Bool)
  | whole (n : Int)
  /-- A number that is not whole, as it is written. -/
  | real (literal : String)
  | text (s : String)
  | list (items : List Node)
  | table (rows : List (Node × Node))
  /-- A scalar that is not what its tag says, or a node repeated within itself. -/
  | misfit
deriving Inhabited

namespace Node

/-! ## Equality -/

mutual

/-- Whether two nodes are the same; the rows of a mapping have an order. -/
def same : Node → Node → Bool
  | null, null => true
  | truth a, truth b => a == b
  | whole a, whole b => a == b
  | real a, real b => a == b
  | text a, text b => a == b
  | list as, list bs => sameItems as bs
  | table as, table bs => sameRows as bs
  | misfit, misfit => true
  | _, _ => false

def sameItems : List Node → List Node → Bool
  | [], [] => true
  | a :: as, b :: bs => same a b && sameItems as bs
  | _, _ => false

def sameRows : List (Node × Node) → List (Node × Node) → Bool
  | [], [] => true
  | (a, v) :: as, (b, w) :: bs => same a b && same v w && sameRows as bs
  | _, _ => false

end

/-! ## Mappings -/

/-- Makes rows of nodes that come one after another, behind the rows that are there;
`key` is the key that waits for its value. No key may have two rows. A key that is still
waiting in the end has none. -/
def pairUp : (key : Option Node) → (rows : List (Node × Node)) → List Node →
    Option (List (Node × Node))
  | _, rows, [] => some rows
  | none, rows, misfit :: rest => pairUp none rows rest
  | none, rows, key :: rest => pairUp (some key) rows rest
  | some key, rows, value :: rest =>
    if rows.any fun row => same row.1 key then none else pairUp none (rows ++ [(key, value)]) rest

/-- The mapping of nodes that come one after another. -/
def ofEntries? (nodes : List Node) : Option Node := (pairUp none [] nodes).map table

theorem pairUp_pair (key value : Node) (h : key ≠ misfit) :
    pairUp none [] [key, value] = some [(key, value)] := by
  cases key <;> simp_all [pairUp]

theorem pairUp_misfit (rows : List (Node × Node)) (rest : List Node) :
    pairUp none rows (misfit :: rest) = pairUp none rows rest := by
  simp [pairUp]

/-! ## Documents -/

/-- The name of the row that a node makes as a key: keys are texts or whole numbers. -/
def name? : Node → Option String
  | text s => some s
  | whole n => some (toString n)
  | _ => none

mutual

/-- The document that a node stands for. The words for infinity that begin with a point
stand for none. -/
def document? : Node → Option Document
  | null => some .null
  | truth b => some (.truth b)
  | whole n => some (.whole n)
  | real literal => (Decimal.Literal.float? literal).map .real
  | text s => some (.text s)
  | list items => (documents? items).map .list
  | table rows => (documentRows? [] rows).map .table
  | misfit => some .null

def documents? : List Node → Option (List Document)
  | [] => some []
  | n :: rest => do
    let d ← document? n
    let ds ← documents? rest
    some (d :: ds)

/-- The rows of a table; a number and a text may make the same row. -/
def documentRows? (done : List (String × Document)) :
    List (Node × Node) → Option (List (String × Document))
  | [] => some done
  | (key, value) :: rest => do
    let key ← name? key
    let value ← document? value
    documentRows? (Document.put key value done) rest

end

end Node

end Troupe.Yaml
