import Troupe.Channel

/-!
# Watermarks derived from a capacity

Where only a capacity is given, backpressure sets in at three quarters of it and is lifted at one
quarter. Three times the capacity is taken first, in a machine word, and divided afterwards. Nothing
but that triple stands in the way: three quarters of a word are a word, but for a capacity beyond a
third of the largest word the triple is none, and whoever derives watermarks from it breaks down.

* `ofCapacity?_eq_none_iff` — the capacities over which one breaks down;
* `isQuartersOf_ofCapacity` — the others get the exact quarters;
* `IsQuartersOf.valid_iff` — which fit every capacity but zero;
* `derives_quarters_iff` — all of that together, up to the channel of that capacity.
-/

namespace Troupe

namespace Watermarks

/-! ## Quarters -/

/-- Three quarters and one quarter of a capacity, in exact numbers. The high watermark is at least
one, the low one below it. -/
structure IsQuartersOf (w : Watermarks) (capacity : Nat) : Prop where
  whole : w.capacity = capacity
  high : w.high = max 1 (3 * capacity / 4)
  low : w.low = min (capacity / 4) (w.high - 1)

/-- What is derived without a bound on the triple are the exact quarters. -/
theorem isQuartersOf_ofCapacity (capacity : Nat) :
    (ofCapacity capacity).IsQuartersOf capacity where
  whole := rfl
  high := by
    show max (capacity * 3 / 4) 1 = max 1 (3 * capacity / 4)
    rw [Nat.max_comm, Nat.mul_comm]
  low := rfl

/-- A capacity has its quarters once. -/
theorem IsQuartersOf.unique {w w' : Watermarks} {capacity : Nat} (h : w.IsQuartersOf capacity)
    (h' : w'.IsQuartersOf capacity) : w = w' := by
  have hcapacity : w.capacity = w'.capacity := h.whole.trans h'.whole.symm
  have hhigh : w.high = w'.high := h.high.trans h'.high.symm
  have hlow : w.low = w'.low := by rw [h.low, h'.low, hhigh]
  calc w = ⟨w.capacity, w.high, w.low⟩ := rfl
    _ = ⟨w'.capacity, w'.high, w'.low⟩ := by rw [hcapacity, hhigh, hlow]
    _ = w' := rfl

/-- The quarters fit every capacity but zero. For the smallest ones it is the bounds of the
watermarks that see to it: three quarters of one are none. -/
theorem IsQuartersOf.valid_iff {w : Watermarks} {capacity : Nat} (h : w.IsQuartersOf capacity) :
    w.Valid ↔ 1 ≤ capacity := by
  have hwhole := h.whole
  have hhigh := h.high
  have hlow := h.low
  unfold Valid
  omega

/-! ## Words -/

/-- One breaks down exactly over the capacities whose triple is no word. -/
theorem ofCapacity?_eq_none_iff (capacity : Nat) :
    ofCapacity? capacity = none ↔ Word.last < capacity * 3 := by
  rw [Option.eq_none_iff_forall_ne_some]
  constructor
  · intro hnone
    rcases Nat.lt_or_ge Word.last (capacity * 3) with hlarge | hfits
    · exact hlarge
    · exact absurd (ofCapacity?_eq_some_iff.mpr ⟨hfits, rfl⟩) (hnone (ofCapacity capacity))
  · intro hlarge w hsome
    exact absurd (ofCapacity?_eq_some_iff.mp hsome).1 (Nat.not_le.mpr hlarge)

/-- What is derived are the exact quarters, and of the other capacities nothing is derived. -/
theorem ofCapacity?_eq_some_iff_isQuartersOf (capacity : Nat) (w : Watermarks) :
    ofCapacity? capacity = some w ↔ capacity * 3 ≤ Word.last ∧ w.IsQuartersOf capacity := by
  rw [ofCapacity?_eq_some_iff]
  constructor
  · rintro ⟨hfits, rfl⟩
    exact ⟨hfits, isQuartersOf_ofCapacity capacity⟩
  · rintro ⟨hfits, hquarters⟩
    exact ⟨hfits, (isQuartersOf_ofCapacity capacity).unique hquarters⟩

/-! ## Sizings that are accepted -/

/-- The check of a sizing and its validity are one thing. -/
theorem validate_eq_ok_iff (w : Watermarks) : w.validate = .ok () ↔ w.Valid := by
  rw [← check_eq_none_iff]
  unfold validate
  cases w.check with
  | none => exact iff_of_true rfl rfl
  | some why => exact iff_of_false nofun nofun

/-- What is asked of a sizing that is derived is asked of the quarters, if they are derived. -/
theorem map_ofCapacity?_eq_some_iff {α : Type} (f : Watermarks → α) (a : α) (capacity : Nat) :
    (ofCapacity? capacity).map f = some a ↔
      capacity * 3 ≤ Word.last ∧ f (ofCapacity capacity) = a := by
  rw [Option.map_eq_some_iff]
  constructor
  · rintro ⟨w, hw, rfl⟩
    obtain ⟨hfits, rfl⟩ := ofCapacity?_eq_some_iff.mp hw
    exact ⟨hfits, rfl⟩
  · rintro ⟨hfits, rfl⟩
    exact ⟨ofCapacity capacity, ofCapacity?_eq_some_iff.mpr ⟨hfits, rfl⟩, rfl⟩

end Watermarks

namespace Channel

variable {κ ω μ : Type} [DecidableEq κ]

/-- A channel opens exactly with a sizing that is accepted. -/
theorem exists_open?_iff (marks : Watermarks) (first : κ) :
    (∃ c : Channel κ ω μ, open? marks first = .ok c) ↔ marks.Valid := by
  rw [← Watermarks.validate_eq_ok_iff]
  unfold open? Mailbox.open?
  cases marks.validate with
  | ok _ => exact iff_of_true ⟨_, rfl⟩ rfl
  | error why => exact iff_of_false (fun ⟨_, hc⟩ => nomatch hc) nofun

end Channel

namespace Watermarks

variable {κ : Type} [DecidableEq κ]

/-- From a capacity its exact quarters are derived, if the triple of the capacity is a word;
otherwise whoever derives them breaks down. Where they are derived they are accepted and open a
channel unless the capacity is zero, for which they are refused. -/
theorem derives_quarters_iff (ω μ : Type) (first : κ) (capacity : Nat) :
    (∀ w, ofCapacity? capacity = some w ↔
      capacity * 3 ≤ Word.last ∧ w.IsQuartersOf capacity) ∧
    (ofCapacity? capacity = none ↔ Word.last < capacity * 3) ∧
    ((ofCapacity? capacity).map validate = some (.ok ()) ↔
      capacity * 3 ≤ Word.last ∧ 1 ≤ capacity) ∧
    ((∃ c : Channel κ ω μ, (ofCapacity? capacity).map (Channel.open? · first) = some (.ok c)) ↔
      capacity * 3 ≤ Word.last ∧ 1 ≤ capacity) ∧
    (ofCapacity? 0).map validate = some (.error (.misuse .zeroCapacity)) := by
  have hvalid : (ofCapacity capacity).Valid ↔ 1 ≤ capacity :=
    (isQuartersOf_ofCapacity capacity).valid_iff
  refine ⟨ofCapacity?_eq_some_iff_isQuartersOf capacity, ofCapacity?_eq_none_iff capacity, ?_, ?_,
    ?_⟩
  · rw [map_ofCapacity?_eq_some_iff, validate_eq_ok_iff, hvalid]
  · simp only [map_ofCapacity?_eq_some_iff, exists_and_left, Channel.exists_open?_iff, hvalid]
  · exact (map_ofCapacity?_eq_some_iff validate _ 0).mpr ⟨Nat.zero_le _, rfl⟩

/-- The smallest capacity whose triple is no word. Its quarters are words and would fit it, and
still nobody can derive them. -/
theorem breaks_down_at_third_of_words :
    let capacity := 6148914691236517206
    let quarters : Watermarks := ⟨capacity, 4611686018427387904, 1537228672809129301⟩
    1 ≤ capacity ∧ capacity ≤ Word.last ∧ quarters.IsQuartersOf capacity ∧
      quarters.validate = .ok () ∧ ofCapacity? capacity = none ∧
        ofCapacity? (capacity - 1) =
          some ⟨capacity - 1, 4611686018427387903, 1537228672809129301⟩ := by
  intro capacity quarters
  refine ⟨by decide, by decide, ⟨rfl, by decide, by decide⟩, ?_, ?_, ?_⟩
  · exact (validate_eq_ok_iff quarters).mpr (by decide)
  · exact (ofCapacity?_eq_none_iff capacity).mpr (by decide)
  · exact ofCapacity?_eq_some_iff.mpr ⟨by decide, by decide⟩

end Watermarks

end Troupe
