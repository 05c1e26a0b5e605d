import Mathlib.Algebra.GroupWithZero.Nat
import Mathlib.Data.List.Nodup
import Troupe.Table

/-!
# Tables have one row a key

Writing and erasing never give a key a second row (`Distinct`). So a table may be
thinned out row by row, and what is looked up in it is thinned out in the same way:

* `Distinct.insert`, `Distinct.erase`, `Distinct.retain` — the keys stay distinct;
* `get?_insert_cases`, `get?_of_erase` — where what is looked up comes from;
* `get?_retain` — the rows of values that fail a test are as good as absent;
* `mem_keys_iff`, `Distinct.size_erase` — the rows are as many as the keys at which
  something is found;
* `sum_modify` — what changing a value does to a sum over all rows.
-/

namespace Troupe

namespace Table

variable {κ α : Type}

/-- No key has two rows. -/
def Distinct (t : Table κ α) : Prop := t.keys.Nodup

/-- The rows whose value passes a test. -/
def retain (t : Table κ α) (p : α → Bool) : Table κ α := ⟨t.rows.filter fun row => p row.2⟩

theorem distinct_empty : (empty : Table κ α).Distinct := List.nodup_nil

theorem Distinct.retain {t : Table κ α} (h : t.Distinct) (p : α → Bool) :
    (t.retain p).Distinct :=
  h.sublist (List.filter_sublist.map _)

variable [DecidableEq κ]

theorem Distinct.erase {t : Table κ α} (h : t.Distinct) (key : κ) : (t.erase key).Distinct :=
  h.sublist (List.filter_sublist.map _)

/-- A new key comes last. -/
theorem keys_insert_of_notMem (t : Table κ α) {key : κ} (a : α) (h : key ∉ t.keys) :
    (t.insert key a).keys = t.keys ++ [key] := by
  obtain ⟨rows⟩ := t
  simp only [keys, insert] at *
  induction rows with
  | nil => rfl
  | cons row rest ih =>
      rw [List.map_cons, List.mem_cons, not_or] at h
      obtain ⟨hrow, hrest⟩ := h
      simp [put, Ne.symm hrow, ih hrest]

/-- A write replaces the row of its key, or appends one if there is none. -/
theorem Distinct.insert {t : Table κ α} (h : t.Distinct) (key : κ) (a : α) :
    (t.insert key a).Distinct := by
  by_cases hk : key ∈ t.keys
  · rw [Distinct, keys_insert_of_mem t key a hk]
    exact h
  · rw [Distinct, keys_insert_of_notMem t a hk]
    -- a new row is put at the end, and no other has its key
    refine List.nodup_append.mpr ⟨h, List.nodup_singleton key, ?_⟩
    intro k hmem other hother heq
    rw [List.mem_singleton.mp hother] at heq
    exact hk (heq ▸ hmem)

/-- What is found after a write is what was written, or was there before. -/
theorem get?_insert_cases {t : Table κ α} {key other : κ} {a b : α}
    (h : (t.insert key a).get? other = some b) :
    (other = key ∧ b = a) ∨ (other ≠ key ∧ t.get? other = some b) := by
  rw [get?_insert] at h
  by_cases hk : other = key
  · rw [if_pos hk] at h
    exact Or.inl ⟨hk, (Option.some.inj h).symm⟩
  · rw [if_neg hk] at h
    exact Or.inr ⟨hk, h⟩

/-- What is found after an erasure was there before, elsewhere. -/
theorem get?_of_erase {t : Table κ α} {key other : κ} {b : α}
    (h : (t.erase key).get? other = some b) : other ≠ key ∧ t.get? other = some b := by
  rw [get?_erase] at h
  by_cases hk : other = key
  · rw [if_pos hk] at h
    exact nomatch h
  · rw [if_neg hk] at h
    exact ⟨hk, h⟩

/-- A change shows at its key only, and only if there is something to change. -/
theorem get?_modify (t : Table κ α) (key other : κ) (f : α → α) :
    (t.modify key f).get? other = if other = key then (t.get? key).map f else t.get? other := by
  unfold modify
  cases h : t.get? key with
  | none =>
      by_cases hk : other = key
      · rw [if_pos hk, hk, h]
        rfl
      · rw [if_neg hk]
  | some a => exact get?_insert t key other (f a)

/-- Nothing is found at a key that has no row. -/
theorem lookup_eq_none_of_notMem {key : κ} {rows : List (κ × α)} (h : key ∉ rows.map (·.1)) :
    lookup key rows = none := by
  induction rows with
  | nil => rfl
  | cons row rest ih =>
      rw [List.map_cons, List.mem_cons, not_or] at h
      obtain ⟨hrow, hrest⟩ := h
      rw [lookup, if_neg (Ne.symm hrow)]
      exact ih hrest

/-- What fails the test is as good as absent, since no key has a second row behind the first. -/
theorem get?_retain {t : Table κ α} (h : t.Distinct) (p : α → Bool) (key : κ) :
    (t.retain p).get? key = (t.get? key).filter p := by
  obtain ⟨rows⟩ := t
  simp only [Distinct, keys, get?, Table.retain] at *
  induction rows with
  | nil => rfl
  | cons row rest ih =>
      rw [List.map_cons, List.nodup_cons] at h
      obtain ⟨hrow, hrest⟩ := h
      by_cases hk : row.1 = key
      · -- the only row of the key: when it goes, nothing stands behind it
        have hgone : lookup key (rest.filter fun row => p row.2) = none := by
          rw [ih hrest, lookup_eq_none_of_notMem (hk ▸ hrow)]
          rfl
        by_cases hp : p row.2 = true
        · simp [List.filter, lookup, Option.filter, hk, hp]
        · simp [List.filter, lookup, Option.filter, hk, hp, hgone]
      · by_cases hp : p row.2 = true
        · simpa [List.filter, lookup, hk, hp] using ih hrest
        · simpa [List.filter, lookup, hk, hp] using ih hrest

/-- What is found after thinning out was there before, and passes the test. -/
theorem get?_of_retain {t : Table κ α} (ht : t.Distinct) {p : α → Bool} {key : κ} {a : α}
    (h : (t.retain p).get? key = some a) : t.get? key = some a ∧ p a = true := by
  rw [get?_retain ht] at h
  exact Option.filter_eq_some_iff.mp h

/-! ## Counting rows -/

/-- A key has a row exactly if something is found at it. -/
theorem mem_keys_iff (t : Table κ α) (key : κ) : key ∈ t.keys ↔ (t.get? key).isSome = true := by
  obtain ⟨rows⟩ := t
  simp only [keys, get?]
  induction rows with
  | nil => simp [lookup]
  | cons row rest ih =>
      by_cases hk : row.1 = key
      · simp [lookup, hk]
      · simp [lookup, hk, Ne.symm hk, ih]

omit [DecidableEq κ] in
theorem length_keys (t : Table κ α) : t.keys.length = t.size := List.length_map _

theorem size_insert_of_mem {t : Table κ α} {key : κ} (h : key ∈ t.keys) (a : α) :
    (t.insert key a).size = t.size := by
  rw [← length_keys, ← length_keys, keys_insert_of_mem t key a h]

theorem size_insert_of_notMem {t : Table κ α} {key : κ} (h : key ∉ t.keys) (a : α) :
    (t.insert key a).size = t.size + 1 := by
  rw [← length_keys, ← length_keys, keys_insert_of_notMem t a h, List.length_append,
    List.length_singleton]

/-- An erasure takes away the one row of its key. -/
theorem Distinct.size_erase {t : Table κ α} (ht : t.Distinct) {key : κ} (h : key ∈ t.keys) :
    (t.erase key).size + 1 = t.size := by
  have hkeys : (t.erase key).keys = t.keys.erase key := by
    rw [List.Nodup.erase_eq_filter ht]
    simp [keys, Table.erase, List.filter_map, Function.comp_def, bne, beq_eq_decide]
  have hpos : 0 < t.keys.length := List.length_pos_of_mem h
  rw [← length_keys, ← length_keys, hkeys, List.length_erase_of_mem h]
  omega

/-! ## Adding up -/

/-- A row is found at its key. -/
theorem Distinct.get?_of_mem {t : Table κ α} (ht : t.Distinct) {key : κ} {a : α}
    (h : (key, a) ∈ t.rows) : t.get? key = some a := by
  obtain ⟨rows⟩ := t
  simp only [Distinct, keys, get?] at *
  induction rows with
  | nil => cases h
  | cons row rest ih =>
      rw [List.map_cons, List.nodup_cons] at ht
      rcases List.mem_cons.mp h with rfl | hrest
      · rw [lookup, if_pos rfl]
      -- a row further down does not stand behind another of its key
      · have hother : row.1 ≠ key := by
          rintro rfl
          exact ht.1 (List.mem_map.mpr ⟨_, hrest, rfl⟩)
        rw [lookup, if_neg hother]
        exact ih ht.2 hrest

/-- Writing another value adds what is new, and takes off what was there. -/
theorem sum_insert (size : α → Nat) {t : Table κ α} {key : κ} {a : α} (h : t.get? key = some a)
    (b : α) :
    ((t.insert key b).values.map size).sum + size a = (t.values.map size).sum + size b := by
  obtain ⟨rows⟩ := t
  simp only [get?, insert, values] at *
  induction rows with
  | nil => cases h
  | cons row rest ih =>
      -- the value that is written over is the one that was looked up
      by_cases hk : row.1 = key
      · rw [lookup, if_pos hk] at h
        obtain rfl : row.2 = a := Option.some.inj h
        simp only [put, if_pos hk, List.map_cons, List.sum_cons]
        omega
      · rw [lookup, if_neg hk] at h
        have hrest := ih h
        simp only [put, if_neg hk, List.map_cons, List.sum_cons]
        omega

/-- Changing the value at a key adds what is new, and takes off what was there. -/
theorem sum_modify (size : α → Nat) {t : Table κ α} {key : κ} {a : α} (h : t.get? key = some a)
    (f : α → α) :
    ((t.modify key f).values.map size).sum + size a = (t.values.map size).sum + size (f a) := by
  rw [modify, h]
  exact sum_insert size h (f a)

/-- A value at a new key comes last. -/
theorem values_insert_of_none {t : Table κ α} {key : κ} (h : t.get? key = none) (a : α) :
    (t.insert key a).values = t.values ++ [a] := by
  obtain ⟨rows⟩ := t
  simp only [get?, insert, values] at *
  induction rows with
  | nil => rfl
  | cons row rest ih =>
      by_cases hk : row.1 = key
      · rw [lookup, if_pos hk] at h
        cases h
      · rw [lookup, if_neg hk] at h
        simp only [put, if_neg hk, List.map_cons, ih h, List.cons_append]

theorem keys_modify (t : Table κ α) (key : κ) (f : α → α) : (t.modify key f).keys = t.keys := by
  unfold modify
  split
  · next a h =>
      have hmem : key ∈ t.keys := (t.mem_keys_iff key).mpr (by rw [h]; rfl)
      exact keys_insert_of_mem t key _ hmem
  · rfl

theorem Distinct.modify {t : Table κ α} (ht : t.Distinct) (key : κ) (f : α → α) :
    (t.modify key f).Distinct := by
  rw [Distinct, keys_modify]
  exact ht

/-- Of two writes to one key the second counts. -/
theorem insert_insert (t : Table κ α) (key : κ) (a b : α) :
    (t.insert key a).insert key b = t.insert key b := by
  have hput : ∀ rows : List (κ × α), put key b (put key a rows) = put key b rows := by
    intro rows
    -- both writes go to the first row of the key, or to the end
    induction rows with
    | nil => simp only [put, if_true]
    | cons row rest ih =>
        by_cases hk : row.1 = key
        · simp only [put, if_pos hk, if_true]
        · simp only [put, if_neg hk, ih]
  simp only [insert, hput]

/-- Writing what is there already changes nothing. -/
theorem insert_eq_self {t : Table κ α} {key : κ} {a : α} (h : t.get? key = some a) :
    t.insert key a = t := by
  obtain ⟨rows⟩ := t
  simp only [get?, insert, mk.injEq] at *
  induction rows with
  | nil => cases h
  | cons row rest ih =>
      by_cases hk : row.1 = key
      · rw [lookup, if_pos hk] at h
        obtain rfl := Option.some.inj h
        rw [put, if_pos hk, ← hk]
      · rw [lookup, if_neg hk] at h
        rw [put, if_neg hk, ih h]

theorem modify_modify (t : Table κ α) (key : κ) (f g : α → α) :
    (t.modify key f).modify key g = t.modify key fun a => g (f a) := by
  cases h : t.get? key with
  | none => simp only [modify, h]
  | some a => simp only [modify, h, get?_insert_self, insert_insert]

/-- Only what becomes of the value that is there matters. -/
theorem modify_congr {t : Table κ α} {key : κ} {f g : α → α}
    (h : ∀ a, t.get? key = some a → f a = g a) : t.modify key f = t.modify key g := by
  cases hget : t.get? key with
  | none => simp only [modify, hget]
  | some a => simp only [modify, hget, h a hget]

/-- A change that leaves the value as it is changes nothing. -/
theorem modify_eq_self {t : Table κ α} {key : κ} {f : α → α}
    (h : ∀ a, t.get? key = some a → f a = a) : t.modify key f = t := by
  cases hget : t.get? key with
  | none => simp only [modify, hget]
  | some a => simp only [modify, hget, h a hget, insert_eq_self hget]

end Table

end Troupe
