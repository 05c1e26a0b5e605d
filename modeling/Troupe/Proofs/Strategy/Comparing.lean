import Mathlib.Data.Prod.Lex
import Mathlib.Data.List.Forall2
import Mathlib.Data.Int.Order.Basic

/-!
# Numbers that compare, and lists that fall

A list is put into falling order by a merge sort that only asks which of two numbers is less. That
is a sorting when the numbers compare with each other, as those of a linear order do, and doubles
when none of them is NaN. Two falling orders of the same list then differ at most in where they
have numbers of which neither is less.

* `AreComparable.of_place` and `areComparable_of_not_isNaN` — which numbers compare;
* `pairwise_falling` — sorting puts them into falling order;
* `forall₂_of_falling` — two falling orders agree place by place.
-/

namespace Troupe

/-- Numbers of which any two compare: what is less is not more, and what is not less than a second
one that is not less than a third is not less than the third. -/
structure AreComparable {R : Type} [LT R] (values : List R) : Prop where
  asymm : ∀ a ∈ values, ∀ b ∈ values, a < b → ¬ b < a
  trans : ∀ a ∈ values, ∀ b ∈ values, ∀ c ∈ values, ¬ a < b → ¬ b < c → ¬ a < c

/-- Numbers compare when they have places in a linear order and the lesser stands before. -/
theorem AreComparable.of_place {R L : Type} [LT R] [LinearOrder L] {values : List R} (place : R → L)
    (h : ∀ a ∈ values, ∀ b ∈ values, (a < b ↔ place a < place b)) : AreComparable values where
  asymm := by
    intro a ha b hb hab hba
    rw [h a ha b hb] at hab
    rw [h b hb a ha] at hba
    exact lt_asymm hab hba
  trans := by
    intro a ha b hb c hc hab hbc
    rw [h a ha b hb, not_lt] at hab
    rw [h b hb c hc, not_lt] at hbc
    rw [h a ha c hc, not_lt]
    exact hbc.trans hab

/-- What is comparable among more values is comparable among fewer. -/
theorem AreComparable.of_subset {R : Type} [LT R] {values values' : List R}
    (h : AreComparable values) (hsubset : values' ⊆ values) : AreComparable values' where
  asymm := fun a ha b hb => h.asymm a (hsubset ha) b (hsubset hb)
  trans := fun a ha b hb c hc => h.trans a (hsubset ha) b (hsubset hb) c (hsubset hc)

/-! ## Doubles -/

namespace Double

open Float.Model (UnpackedFloat)

/-- Where a double stands: by sign and size first, then by exponent and mantissa, which count
backwards below zero. Both zeros stand in one place. -/
def place : UnpackedFloat → Int ×ₗ Int ×ₗ Int
  | .infinity .negative => toLex (-2, toLex (0, 0))
  | .finite .negative mantissa exponent _ => toLex (-1, toLex (-exponent, -mantissa))
  | .zero _ | .notANumber => toLex (0, toLex (0, 0))
  | .finite .positive mantissa exponent _ => toLex (1, toLex (exponent, mantissa))
  | .infinity .positive => toLex (2, toLex (0, 0))

/-- Exponents decide first, mantissas only between equal exponents. -/
theorem compare_then_eq_lt (e e' : Int) (m m' : Nat) :
    (compare e e').then (compare m m') = .lt ↔ e < e' ∨ e = e' ∧ m < m' := by
  rw [Ordering.then_eq_lt, compare_lt_iff_lt, compare_lt_iff_lt, compare_eq_iff_eq]

theorem compare_then_eq_gt (e e' : Int) (m m' : Nat) :
    (compare e e').then (compare m m') = .gt ↔ e' < e ∨ e = e' ∧ m' < m := by
  rw [Ordering.then_eq_gt, compare_gt_iff_gt, compare_gt_iff_gt, compare_eq_iff_eq]

theorem sign_compare_eq_lt (s s' : UnpackedFloat.Sign) :
    compare s s' = .lt ↔ s = .negative ∧ s' = .positive := by
  cases s <;> cases s' <;> simp [compare]

/-- One double is less than another when it stands before it. -/
theorem lt_iff_place_lt {a b : UnpackedFloat} (ha : a.isNaN = false) (hb : b.isNaN = false) :
    a.lt b = true ↔ place a < place b := by
  rcases a with (_ | _) | _ | _ | ⟨_ | _, m, e, hm⟩
  case notANumber => cases ha
  all_goals
    rcases b with (_ | _) | _ | _ | ⟨_ | _, m', e', hm'⟩
    case notANumber => cases hb
    all_goals
      dsimp only [UnpackedFloat.lt, UnpackedFloat.compare, place]
      simp [Prod.Lex.toLex_lt_toLex, compare_then_eq_lt, compare_then_eq_gt, sign_compare_eq_lt]

/-- Numbers are ordered as their places are. -/
theorem lt_iff {x y : Float} (hx : x.isNaN = false) (hy : y.isNaN = false) :
    x < y ↔ place x.toModel.unpack < place y.toModel.unpack := by
  rw [← lt_iff_place_lt hx hy]
  exact decide_eq_true_iff

end Double

theorem areComparable_of_not_isNaN {values : List Float} (h : ∀ x ∈ values, x.isNaN = false) :
    AreComparable values :=
  AreComparable.of_place (fun x => Double.place x.toModel.unpack) fun x hx y hy =>
    Double.lt_iff (h x hx) (h y hy)

/-! ## Falling orders -/

section

variable {α R : Type} [LT R]

/-- No entry is less than one behind it. -/
def IsFalling (l : List (α × R)) : Prop :=
  l.Pairwise fun a b => ¬ a.2 < b.2

/-- Merge sorts compare any two elements of a type, so the sorting is done on the type of those
that are in the list. -/
theorem pairwise_falling [DecidableLT R] {l : List (α × R)} (h : AreComparable (l.map (·.2))) :
    IsFalling (l.mergeSort fun a b => !decide (a.2 < b.2)) := by
  have hvalue : ∀ x : { x // x ∈ l }, x.val.2 ∈ l.map (·.2) := fun x =>
    List.mem_map_of_mem x.property
  let before : { x // x ∈ l } → { x // x ∈ l } → Bool := fun a b => !decide (a.val.2 < b.val.2)
  -- on the elements of the list only, where the comparison behaves like an order
  have hsorted : (l.attach.mergeSort before).Pairwise fun a b => before a b := by
    refine List.pairwise_mergeSort ?_ ?_ l.attach
    · intro a b c hab hbc
      simp only [before, Bool.not_eq_true', decide_eq_false_iff_not] at hab hbc ⊢
      exact h.trans _ (hvalue a) _ (hvalue b) _ (hvalue c) hab hbc
    · intro a b
      simp only [before, Bool.or_eq_true, Bool.not_eq_true', decide_eq_false_iff_not]
      by_cases hlt : a.val.2 < b.val.2
      · exact Or.inr (h.asymm _ (hvalue a) _ (hvalue b) hlt)
      · exact Or.inl hlt
  have hmap : (l.attach.mergeSort before).map Subtype.val =
      l.mergeSort fun a b => !decide (a.2 < b.2) := by
    have hsame := List.map_mergeSort (r := before) (f := Subtype.val) (l := l.attach)
      (s := fun a b : α × R => !decide (a.2 < b.2)) fun _ _ _ _ => rfl
    rw [hsame, List.attach_map_subtype_val]
  rw [IsFalling, ← hmap, List.pairwise_map]
  refine hsorted.imp ?_
  intro a b hab
  simpa [before] using hab

/-- Of two falling orders of one list, neither has a greater number in some place than the other:
the first so many places of the one hold numbers that are no less, and the other would run out of
such numbers before. -/
theorem not_lt_of_falling [DecidableLT R] {l l' : List (α × R)} (hperm : l.Perm l')
    (h : AreComparable (l.map (·.2))) (hl : IsFalling l) (hl' : IsFalling l') {k : Nat}
    (hk : k < l.length) (hk' : k < l'.length) : ¬ l[k].2 < l'[k].2 := by
  intro hlt
  have hvalue : ∀ x ∈ l, x.2 ∈ l.map (·.2) := fun x hx => List.mem_map_of_mem hx
  have hvalue' : ∀ x ∈ l', x.2 ∈ l.map (·.2) := fun x hx => hvalue x (hperm.mem_iff.mpr hx)
  have hx := hvalue _ (List.getElem_mem hk)
  have hy := hvalue' _ (List.getElem_mem hk')
  let isGreat : α × R → Bool := fun z => !decide (z.2 < l'[k].2)
  -- the first places of the second list are all great, and there are more than `k`
  have hmany : k + 1 ≤ l'.countP isGreat := by
    have hall : ∀ z ∈ l'.take (k + 1), isGreat z := by
      intro z hz
      obtain ⟨j, hj, rfl⟩ := List.mem_take_iff_getElem.mp hz
      simp only [isGreat, Bool.not_eq_true', decide_eq_false_iff_not]
      rcases Nat.lt_or_eq_of_le (show j ≤ k by omega) with hjk | rfl
      · exact List.pairwise_iff_getElem.mp hl' j k _ hk' hjk
      · intro hself
        exact h.asymm _ hy _ hy hself hself
    have hcount := List.countP_eq_length.mpr hall
    have hle := (List.take_sublist (k + 1) l').countP_le (p := isGreat)
    rw [List.length_take] at hcount
    omega
  -- from place `k` on, the first list has nothing great
  have hfew : l.countP isGreat ≤ k := by
    have hnone : (l.drop k).countP isGreat = 0 := by
      refine List.countP_eq_zero.mpr ?_
      intro z hz hgreat
      obtain ⟨j, hj, rfl⟩ := List.mem_drop_iff_getElem.mp hz
      simp only [isGreat, Bool.not_eq_true', decide_eq_false_iff_not] at hgreat
      have hz' := hvalue _ (List.getElem_mem (show k + j < l.length by omega))
      have hnot : ¬ l[k].2 < l[k + j].2 := by
        rcases Nat.eq_zero_or_pos j with rfl | hpos
        · intro hself
          exact h.asymm _ hx _ hz' hself hself
        · exact List.pairwise_iff_getElem.mp hl k (k + j) hk _ (by omega)
      exact h.trans _ hx _ hz' _ hy hnot hgreat hlt
    have hsplit : l.countP isGreat = (l.take k).countP isGreat + (l.drop k).countP isGreat := by
      rw [← List.countP_append, List.take_append_drop]
    have hle := List.countP_le_length (p := isGreat) (l := l.take k)
    rw [List.length_take] at hle
    omega
  have hsame := hperm.countP_eq isGreat
  omega

/-- Two falling orders of one list have equal numbers in every place. -/
theorem forall₂_of_falling [DecidableLT R] {l l' : List (α × R)} (hperm : l.Perm l')
    (h : AreComparable (l.map (·.2))) (hl : IsFalling l) (hl' : IsFalling l') :
    List.Forall₂ (fun a b => ¬ a.2 < b.2 ∧ ¬ b.2 < a.2) l l' := by
  have hcompare' : AreComparable (l'.map (·.2)) := h.of_subset (hperm.map _).symm.subset
  refine List.forall₂_iff_get.mpr ⟨hperm.length_eq, ?_⟩
  intro k hk hk'
  exact ⟨not_lt_of_falling hperm h hl hl' hk hk',
    not_lt_of_falling hperm.symm hcompare' hl' hl hk' hk⟩

end

end Troupe
