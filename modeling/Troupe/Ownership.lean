import Troupe.Envelope
import Troupe.Table

/-!
# Ownership

Three ways of holding a value: alone and movable (`Cell`), together with other
readers (`Shared`), and under a label known only when the program runs (`Tagged`).

* `take_restore` — a value taken out and put back is the value;
* `get_of_take` — an emptied cell refuses every access.
-/

namespace Troupe

/-- A long-lived binding of a value that can be moved out of it. -/
structure Cell (α : Type) where
  value : Option α
deriving DecidableEq, Repr

namespace Cell

variable {α : Type}

/-- A binding of a value. -/
def ofValue (a : α) : Cell α := ⟨some a⟩

/-- The value, while it is there. -/
def get (c : Cell α) : Except Fault α :=
  match c.value with
  | some a => .ok a
  | none => .error .consumed

/-- Changes the value in place, while it is there. -/
def update (c : Cell α) (f : α → α) : Except Fault (Cell α) :=
  match c.value with
  | some a => .ok ⟨some (f a)⟩
  | none => .error .consumed

/-- Moves the value out. -/
def take (c : Cell α) : Except Fault (α × Cell α) :=
  match c.value with
  | some a => .ok (a, ⟨none⟩)
  | none => .error .consumed

/-- Puts a value in. -/
def restore (_ : Cell α) (a : α) : Cell α := ⟨some a⟩

/-- Whether the value has been moved out. -/
def isConsumed (c : Cell α) : Bool := c.value.isNone

theorem take_restore {c c' : Cell α} {a : α} (h : c.take = .ok (a, c')) : c'.restore a = c := by
  obtain ⟨v⟩ := c
  cases v with
  | none => simp [take] at h
  | some b => simp [take] at h; simp [restore, h.1]

theorem get_of_take {c c' : Cell α} {a : α} (h : c.take = .ok (a, c')) :
    c'.get = .error .consumed := by
  obtain ⟨v⟩ := c
  cases v with
  | none => simp [take] at h
  | some b => simp [take] at h; simp [get, ← h.2]

end Cell

/-- A reference to a value that others may read as well. Two references name the same
value when they were copied from one. -/
structure Shared (α : Type) where
  origin : Nat
  value : α
deriving DecidableEq, Repr

namespace Shared

variable {α : Type}

/-- Whether two references name the same value. -/
def same (a b : Shared α) : Bool := a.origin == b.origin

/-- How many of the live references name the value of `a`. -/
def refCount (live : List (Shared α)) (a : Shared α) : Nat := live.countP a.same

end Shared

/-- A value under a label of its own. -/
structure Tagged (α : Type) where
  label : Capability
  value : α
deriving DecidableEq, Repr

instance {α : Type} : Transferable (Tagged α) := ⟨Tagged.label⟩

end Troupe
