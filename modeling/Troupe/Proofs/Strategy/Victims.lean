import Troupe.Strategy.Basic
import Troupe.Proofs.Strategy.Comparing

/-!
# From whom a thief steals

Every worker but the thief is a victim, once, whichever way the choices fall: leaving out the
thief, shuffling, sorting and forgetting the prices lose nobody and bring in nobody. The
predictive order falls by backlog, so chance only decides between workers of whom neither has
less queued.

* `others_iff` — an order of victims, by who stands in it and how often;
* `victims_others` and `victims_falls` — the predictive order has all others, by falling backlog;
* `victims_are_others` — both orders for every thief, every numbered list of loads and all choices.
-/

namespace Troupe

/-- The loads of workers numbered from zero, in their order. -/
def IsNumbered (loads : List Load) : Prop :=
  loads.map (·.index) = List.range loads.length

/-- An order in which every one of `count` workers stands exactly once, except the thief, and
nobody else. -/
def IsOrderOfOthers (count thief : Nat) (victims : List Nat) : Prop :=
  ∀ index, victims.count index = if index < count ∧ index ≠ thief then 1 else 0

/-- A rearrangement of the other workers is an order of them. -/
theorem isOrderOfOthers_of_perm {count thief : Nat} {victims : List Nat}
    (h : victims.Perm ((List.range count).filter (· ≠ thief))) :
    IsOrderOfOthers count thief victims := by
  intro index
  have hnodup : ((List.range count).filter (· ≠ thief)).Nodup := List.nodup_range.filter _
  rw [h.count_eq, hnodup.count]
  simp [List.mem_filter, List.mem_range]

/-- Where a shuffle only reorders, the plain order is one of all others. -/
theorem plainVictims_others {shuffle : List Nat → List Nat} (h : ∀ l, (shuffle l).Perm l)
    (thief : Nat) (loads : List Load) :
    IsOrderOfOthers loads.length thief (plainVictims shuffle thief loads) :=
  isOrderOfOthers_of_perm (h _)

namespace Forecaster

variable {R : Type}

/-- Under its number, a worker's price is its own. -/
theorem get?_of_mem_priced {f : Forecaster R} {loads : List Load}
    (hnumbered : IsNumbered loads) {priced : Nat × R} (h : priced ∈ f.priced loads) :
    ∃ load, loads[priced.1]? = some load ∧ f.backlog load = priced.2 := by
  obtain ⟨load, hload, rfl⟩ := List.mem_map.mp h
  obtain ⟨i, hi, rfl⟩ := List.getElem_of_mem hload
  have hindex : loads[i].index = i := by
    have hget : (loads.map (·.index))[i]? = (List.range loads.length)[i]? := by rw [hnumbered]
    simpa [hi] using hget
  exact ⟨loads[i], by simp [hindex, hi], rfl⟩

variable [LT R]

/-- One worker has less queued than another. -/
def IsLighter (f : Forecaster R) (loads : List Load) (i j : Nat) : Prop :=
  ∃ a b, loads[i]? = some a ∧ loads[j]? = some b ∧ f.backlog a < f.backlog b

/-- Of two workers neither has less queued than the other. -/
def IsLevel (f : Forecaster R) (loads : List Load) (i j : Nat) : Prop :=
  ¬ f.IsLighter loads i j ∧ ¬ f.IsLighter loads j i

variable {f : Forecaster R} {loads : List Load} {thief : Nat}

/-- Between two numbered workers the lighter one is the one with the smaller price. -/
theorem isLighter_iff (hnumbered : IsNumbered loads) {a b : Nat × R} (ha : a ∈ f.priced loads)
    (hb : b ∈ f.priced loads) : f.IsLighter loads a.1 b.1 ↔ a.2 < b.2 := by
  obtain ⟨x, hx, hxa⟩ := get?_of_mem_priced hnumbered ha
  obtain ⟨y, hy, hyb⟩ := get?_of_mem_priced hnumbered hb
  rw [← hxa, ← hyb]
  constructor
  · rintro ⟨x', y', hx', hy', hlt⟩
    rw [hx, Option.some.injEq] at hx'
    rw [hy, Option.some.injEq] at hy'
    rw [hx', hy']
    exact hlt
  · intro hlt
    exact ⟨x, y, hx, hy, hlt⟩

variable [DecidableLT R]

/-- The others with their prices, in the order in which they are robbed. -/
def ranking (f : Forecaster R) (shuffle : List (Nat × R) → List (Nat × R)) (thief : Nat)
    (loads : List Load) : List (Nat × R) :=
  (shuffle ((f.priced loads).filter fun w => w.1 ≠ thief)).mergeSort fun a b =>
    !decide (a.2 < b.2)

theorem victims_eq_map_ranking (f : Forecaster R) (shuffle : List (Nat × R) → List (Nat × R))
    (thief : Nat) (loads : List Load) :
    f.victims shuffle thief loads = (f.ranking shuffle thief loads).map (·.1) := rfl

variable {shuffle shuffle' : List (Nat × R) → List (Nat × R)}

theorem ranking_perm (h : ∀ l, (shuffle l).Perm l) :
    (f.ranking shuffle thief loads).Perm ((f.priced loads).filter fun w => w.1 ≠ thief) :=
  (List.mergeSort_perm _ _).trans (h _)

theorem mem_priced_of_mem_ranking (h : ∀ l, (shuffle l).Perm l) {a : Nat × R}
    (ha : a ∈ f.ranking shuffle thief loads) : a ∈ f.priced loads :=
  (List.mem_filter.mp ((ranking_perm h).mem_iff.mp ha)).1

/-- What is ranked is comparable. -/
theorem areComparable_ranking (h : ∀ l, (shuffle l).Perm l)
    (hcompare : AreComparable (loads.map f.backlog)) :
    AreComparable ((f.ranking shuffle thief loads).map (·.2)) := by
  refine hcompare.of_subset ?_
  intro value hvalue
  obtain ⟨a, ha, rfl⟩ := List.mem_map.mp hvalue
  obtain ⟨load, hload, rfl⟩ := List.mem_map.mp (mem_priced_of_mem_ranking h ha)
  exact List.mem_map_of_mem hload

/-- The ranking falls. -/
theorem ranking_falls (h : ∀ l, (shuffle l).Perm l)
    (hcompare : AreComparable (loads.map f.backlog)) :
    IsFalling (f.ranking shuffle thief loads) := by
  have hsorted : AreComparable ((f.ranking shuffle thief loads).map (·.2)) :=
    areComparable_ranking h hcompare
  have hunsorted := hsorted.of_subset ((List.mergeSort_perm _ _).map _).symm.subset
  exact pairwise_falling hunsorted

/-- The predictive order is one of all others. -/
theorem victims_others (h : ∀ l, (shuffle l).Perm l) (hnumbered : IsNumbered loads) :
    IsOrderOfOthers loads.length thief (f.victims shuffle thief loads) := by
  apply isOrderOfOthers_of_perm
  rw [victims_eq_map_ranking, ← hnumbered]
  refine ((ranking_perm h).map _).trans ?_
  -- leaving out the thief commutes with forgetting the prices
  rw [priced, List.filter_map, List.map_map, List.filter_map]
  rfl

/-- The predictive order falls by backlog. -/
theorem victims_falls (h : ∀ l, (shuffle l).Perm l) (hnumbered : IsNumbered loads)
    (hcompare : AreComparable (loads.map f.backlog)) :
    (f.victims shuffle thief loads).Pairwise fun i j => ¬ f.IsLighter loads i j := by
  rw [victims_eq_map_ranking, List.pairwise_map]
  refine (ranking_falls h hcompare).imp_of_mem ?_
  intro a b ha hb hab
  rw [isLighter_iff hnumbered (mem_priced_of_mem_ranking h ha) (mem_priced_of_mem_ranking h hb)]
  exact hab

/-- Two shuffles differ only between workers that are level. -/
theorem victims_level (h : ∀ l, (shuffle l).Perm l) (h' : ∀ l, (shuffle' l).Perm l)
    (hnumbered : IsNumbered loads) (hcompare : AreComparable (loads.map f.backlog)) :
    List.Forall₂ (f.IsLevel loads) (f.victims shuffle thief loads)
      (f.victims shuffle' thief loads) := by
  have hsorted : AreComparable ((f.ranking shuffle thief loads).map (·.2)) :=
    areComparable_ranking h hcompare
  have hlevel := forall₂_of_falling ((ranking_perm h).trans (ranking_perm h').symm) hsorted
    (ranking_falls h hcompare) (ranking_falls h' hcompare)
  rw [victims_eq_map_ranking, victims_eq_map_ranking, List.forall₂_map_left_iff,
    List.forall₂_map_right_iff, List.forall₂_iff_get]
  obtain ⟨hlength, hget⟩ := List.forall₂_iff_get.mp hlevel
  refine ⟨hlength, ?_⟩
  intro k hk hk'
  have ha := mem_priced_of_mem_ranking h (List.get_mem _ ⟨k, hk⟩)
  have hb := mem_priced_of_mem_ranking h' (List.get_mem _ ⟨k, hk'⟩)
  rw [IsLevel, isLighter_iff hnumbered ha hb, isLighter_iff hnumbered hb ha]
  exact hget k hk hk'

end Forecaster

/-- Every worker but the thief is a victim exactly once in both orders, whoever the thief is and
however the choices fall. The predictive order falls by backlog, and other choices only put workers
of the same backlog in each other's places. -/
theorem victims_are_others {R : Type} [LT R] [DecidableLT R] (f : Forecaster R)
    {loads : List Load} (hnumbered : IsNumbered loads)
    (hcompare : AreComparable (loads.map f.backlog)) (thief : Nat)
    (shuffle : List Nat → List Nat) (hshuffle : ∀ l, (shuffle l).Perm l)
    (mix : List (Nat × R) → List (Nat × R)) (hmix : ∀ l, (mix l).Perm l) :
    IsOrderOfOthers loads.length thief (plainVictims shuffle thief loads) ∧
      IsOrderOfOthers loads.length thief (f.victims mix thief loads) ∧
      (f.victims mix thief loads).Pairwise (fun i j => ¬ f.IsLighter loads i j) ∧
      ∀ mix', (∀ l, (mix' l).Perm l) → List.Forall₂ (f.IsLevel loads)
        (f.victims mix thief loads) (f.victims mix' thief loads) := by
  refine ⟨plainVictims_others hshuffle thief loads, Forecaster.victims_others hmix hnumbered,
    Forecaster.victims_falls hmix hnumbered hcompare, ?_⟩
  intro mix' hmix'
  exact Forecaster.victims_level hmix hmix' hnumbered hcompare

/-- Four workers, two of them level: chance decides which of the two comes first. -/
theorem victims_are_others_of_level :
    let f : Forecaster Float := ⟨(·.mean), fun _ => 0.0⟩
    let load (index : Nat) (mean : Float) : Load := ⟨index, 0, mean, 0.0, .idle⟩
    let loads := [load 0 5.0, load 1 2.0, load 2 9.0, load 3 2.0]
    IsNumbered loads ∧ AreComparable (loads.map f.backlog) ∧
      IsOrderOfOthers 4 0 (plainVictims List.reverse 0 loads) ∧
      f.victims id 0 loads = [2, 1, 3] ∧ f.victims List.reverse 0 loads = [2, 3, 1] ∧
      IsOrderOfOthers 4 0 (f.victims id 0 loads) ∧
      (f.victims id 0 loads).Pairwise (fun i j => ¬ f.IsLighter loads i j) ∧
      List.Forall₂ (f.IsLevel loads) (f.victims id 0 loads) (f.victims List.reverse 0 loads) := by
  intro f load loads
  have hnumbered : IsNumbered loads := rfl
  have hcompare : AreComparable (loads.map f.backlog) := by
    apply areComparable_of_not_isNaN
    decide
  have hlt : (2.0 : Float) < 9.0 := by decide
  have hgt : ¬ (9.0 : Float) < 2.0 := by decide
  have hsame : ¬ (2.0 : Float) < 2.0 := by decide
  have hkept : f.victims id 0 loads = [2, 1, 3] := by
    simp [f, loads, load, Forecaster.victims, Forecaster.priced, List.mergeSort, hlt, hgt, hsame]
  have hreversed : f.victims List.reverse 0 loads = [2, 3, 1] := by
    simp [f, loads, load, Forecaster.victims, Forecaster.priced, List.mergeSort, hlt, hgt, hsame]
  obtain ⟨hplain, hothers, hfalls, hlevel⟩ := victims_are_others f hnumbered hcompare 0
    List.reverse List.reverse_perm id List.Perm.refl
  exact ⟨hnumbered, hcompare, hplain, hkept, hreversed, hothers, hfalls,
    hlevel List.reverse List.reverse_perm⟩

end Troupe
