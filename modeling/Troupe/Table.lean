/-!
# Tables: finite maps in order of insertion

A `Table κ α` is a list of rows without repeated keys. Looking up, writing and
erasing are the only ways in, and each is pinned by what it does to `get?`:

* `get?_insert_self`, `get?_insert_ne` — a write is seen at its own key only;
* `get?_erase_self`, `get?_erase_ne` — so is an erasure;
* `keys_insert_of_mem` — writing a present key keeps the order of the rows.

Rows keep the order in which their keys first arrived, so a listing of a table
never depends on anything but its history.
-/

namespace Troupe

/-- A finite map whose rows stand in the order their keys first arrived. -/
structure Table (κ α : Type) where
  rows : List (κ × α)
deriving Repr

namespace Table

variable {κ α : Type} [DecidableEq κ]

/-- The table without rows. -/
def empty : Table κ α := ⟨[]⟩

instance : Inhabited (Table κ α) := ⟨empty⟩

/-- The value in the first row of `key`. -/
def lookup (key : κ) : List (κ × α) → Option α
  | [] => none
  | (k, a) :: rest => if k = key then some a else lookup key rest

/-- The value at `key`. -/
def get? (t : Table κ α) (key : κ) : Option α := lookup key t.rows

/-- The value at `key`, or `default` when the key is absent. -/
def getD (t : Table κ α) (key : κ) (default : α) : α := (t.get? key).getD default

/-- Whether `key` has a row. -/
def contains (t : Table κ α) (key : κ) : Bool := (t.get? key).isSome

/-- Writes a row in place when the key is present, at the end otherwise. -/
def put (key : κ) (a : α) : List (κ × α) → List (κ × α)
  | [] => [(key, a)]
  | (k, b) :: rest => if k = key then (key, a) :: rest else (k, b) :: put key a rest

/-- The table that maps `key` to `a` and agrees with `t` elsewhere. -/
def insert (t : Table κ α) (key : κ) (a : α) : Table κ α := ⟨put key a t.rows⟩

/-- The table without `key`. -/
def erase (t : Table κ α) (key : κ) : Table κ α := ⟨t.rows.filter fun row => row.1 ≠ key⟩

/-- Changes the value at `key`, when there is one. -/
def modify (t : Table κ α) (key : κ) (f : α → α) : Table κ α :=
  match t.get? key with
  | some a => t.insert key (f a)
  | none => t

/-- The keys in row order. -/
def keys (t : Table κ α) : List κ := t.rows.map (·.1)

/-- The values in row order. -/
def values (t : Table κ α) : List α := t.rows.map (·.2)

/-- The number of rows. -/
def size (t : Table κ α) : Nat := t.rows.length

/-- Whether there is no row. -/
def isEmpty (t : Table κ α) : Bool := t.rows.isEmpty

/-! ## The view `get?` -/

@[simp] theorem get?_empty (key : κ) : (empty : Table κ α).get? key = none := rfl

theorem lookup_put_self (key : κ) (a : α) (rows : List (κ × α)) :
    lookup key (put key a rows) = some a := by
  induction rows with
  | nil => simp [put, lookup]
  | cons row rest ih =>
      by_cases h : row.1 = key
      · simp [put, lookup, h]
      · simp [put, lookup, h, ih]

theorem lookup_put_ne {key other : κ} (h : other ≠ key) (a : α) (rows : List (κ × α)) :
    lookup other (put key a rows) = lookup other rows := by
  induction rows with
  | nil => simp [put, lookup, h.symm]
  | cons row rest ih =>
      by_cases hk : row.1 = key
      · have : row.1 ≠ other := fun e => h (e.symm.trans hk)
        simp [put, lookup, hk, h.symm]
      · by_cases ho : row.1 = other
        · simp [put, lookup, ho, h]
        · simp [put, lookup, hk, ho, ih]

@[simp] theorem get?_insert_self (t : Table κ α) (key : κ) (a : α) :
    (t.insert key a).get? key = some a :=
  lookup_put_self key a t.rows

@[simp] theorem get?_insert_ne (t : Table κ α) {key other : κ} (h : other ≠ key) (a : α) :
    (t.insert key a).get? other = t.get? other :=
  lookup_put_ne h a t.rows

theorem lookup_filter_self (key : κ) (rows : List (κ × α)) :
    lookup key (rows.filter fun row => row.1 ≠ key) = none := by
  induction rows with
  | nil => rfl
  | cons row rest ih =>
      by_cases h : row.1 = key
      · simpa [List.filter, h] using ih
      · simpa [List.filter, h, lookup] using ih

theorem lookup_filter_ne {key other : κ} (h : other ≠ key) (rows : List (κ × α)) :
    lookup other (rows.filter fun row => row.1 ≠ key) = lookup other rows := by
  induction rows with
  | nil => rfl
  | cons row rest ih =>
      by_cases hk : row.1 = key
      · have ho : row.1 ≠ other := fun e => h (e.symm.trans hk)
        simpa [List.filter, hk, lookup, ho, h.symm] using ih
      · by_cases ho : row.1 = other
        · simp [List.filter, lookup, ho, h]
        · simpa [List.filter, hk, lookup, ho] using ih

@[simp] theorem get?_erase_self (t : Table κ α) (key : κ) : (t.erase key).get? key = none :=
  lookup_filter_self key t.rows

@[simp] theorem get?_erase_ne (t : Table κ α) {key other : κ} (h : other ≠ key) :
    (t.erase key).get? other = t.get? other :=
  lookup_filter_ne h t.rows

theorem get?_insert (t : Table κ α) (key other : κ) (a : α) :
    (t.insert key a).get? other = if other = key then some a else t.get? other := by
  by_cases h : other = key
  · subst h; simp
  · simp [h]

theorem get?_erase (t : Table κ α) (key other : κ) :
    (t.erase key).get? other = if other = key then none else t.get? other := by
  by_cases h : other = key
  · subst h; simp
  · simp [h]

/-- Writing a key that has a row keeps the order of the keys. -/
theorem keys_insert_of_mem (t : Table κ α) (key : κ) (a : α) (h : key ∈ t.keys) :
    (t.insert key a).keys = t.keys := by
  obtain ⟨rows⟩ := t
  simp only [keys, insert] at *
  induction rows with
  | nil => simp at h
  | cons row rest ih =>
      by_cases hk : row.1 = key
      · simp [put, hk]
      · have : key ∈ rest.map (·.1) := by
          rw [List.map_cons] at h
          exact (List.mem_cons.mp h).resolve_left fun e => hk e.symm
        simp [put, hk, ih this]

end Table

end Troupe
