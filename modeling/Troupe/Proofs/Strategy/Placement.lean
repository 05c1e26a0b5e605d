import Mathlib.Algebra.Order.Field.Basic
import Mathlib.Algebra.Order.Field.Rat
import Mathlib.Data.List.Induction
import Mathlib.Tactic.Linarith
import Mathlib.Tactic.NormNum
import Mathlib.Tactic.Ring
import Mathlib.Tactic.SplitIfs
import Troupe.Strategy.Basic

/-!
# Where the predictive strategy puts an agent

An agent stays with its spawner unless the spawner's backlog, with the price of one turn of the
agent, exceeds a multiple of what the lightest worker would have then. The price stands on both
sides and the multiple is at least one. So a heavier agent is kept where a lighter one is, a more
loaded spawner is left where a less loaded one is, and nobody is left for a worker that has as much
queued.

* `exists_isFirstLeast` — the lightest worker is the first with the least backlog;
* `destination_some` — the rule, for a spawner that is a worker;
* `destination_weighs` — what the rule does in all pools, at all ratios.
-/

namespace Troupe.Forecaster

section

variable {R : Type} [LinearOrder R]

/-- The load at a position has the least backlog of all, and is the first that has. -/
structure IsFirstLeast (f : Forecaster R) (loads : List Load) (position : Nat) (light : Load) :
    Prop where
  get : loads[position]? = some light
  earlier : ∀ load ∈ loads.take position, f.backlog light < f.backlog load
  least : ∀ load ∈ loads, f.backlog light ≤ f.backlog load

variable {f : Forecaster R} {loads : List Load} {position : Nat} {light : Load}

theorem IsFirstLeast.position_lt (h : f.IsFirstLeast loads position light) :
    position < loads.length :=
  (List.getElem?_eq_some_iff.mp h.get).1

/-- A further load takes the place of the lightest if it has less queued, and not otherwise. -/
theorem IsFirstLeast.snoc (h : f.IsFirstLeast loads position light) (last : Load) :
    if f.backlog last < f.backlog light then
      f.IsFirstLeast (loads ++ [last]) loads.length last
    else f.IsFirstLeast (loads ++ [last]) position light := by
  -- a last load takes over only if it is strictly lighter
  split
  · rename_i hlt
    refine ⟨by simp, ?_, ?_⟩
    · intro load hload
      rw [List.take_left'] at hload
      · exact hlt.trans_le (h.least load hload)
      · rfl
    · intro load hload
      rcases List.mem_append.mp hload with hload | hload
      · exact hlt.le.trans (h.least load hload)
      · rw [List.mem_singleton.mp hload]
  · rename_i hle
    refine ⟨?_, ?_, ?_⟩
    · rw [List.getElem?_append_left h.position_lt, h.get]
    · rw [List.take_append_of_le_length h.position_lt.le]
      exact h.earlier
    · intro load hload
      rcases List.mem_append.mp hload with hload | hload
      · exact h.least load hload
      · rw [List.mem_singleton.mp hload]
        exact not_lt.mp hle

/-- The search for the lightest worker, by induction on the loads looked at so far. -/
theorem exists_isFirstLeast_foldl (f : Forecaster R) (first : Load) (rest : List Load) :
    ∃ position light, f.IsFirstLeast (first :: rest) position light ∧
      (f.priced rest).foldl lighter (first.index, f.backlog first) =
        (light.index, f.backlog light) := by
  -- on the loads from the back: the fold meets them in order
  induction rest using List.reverseRecOn with
  | nil => exact ⟨0, first, ⟨rfl, by simp, by simp⟩, rfl⟩
  | append_singleton rest last ih =>
      obtain ⟨position, light, hlight, hfold⟩ := ih
      have hnext := hlight.snoc last
      have hfold' : (f.priced (rest ++ [last])).foldl lighter (first.index, f.backlog first) =
          lighter (light.index, f.backlog light) (last.index, f.backlog last) := by
        rw [priced, List.map_append, List.foldl_append, ← priced, hfold]
        rfl
      rw [hfold', lighter]
      split at hnext
      · rename_i hlt
        exact ⟨_, last, hnext, if_pos hlt⟩
      · rename_i hle
        exact ⟨position, light, hnext, if_neg hle⟩

/-- A pool that has workers has a first least load, which is what the search finds. -/
theorem exists_isFirstLeast (f : Forecaster R) (hne : loads ≠ []) :
    ∃ position light, f.IsFirstLeast loads position light ∧
      f.lightest? loads = some (light.index, f.backlog light) := by
  obtain ⟨first, rest, rfl⟩ := List.exists_cons_of_ne_nil hne
  obtain ⟨position, light, hlight, hfold⟩ := f.exists_isFirstLeast_foldl first rest
  exact ⟨position, light, hlight, congrArg some hfold⟩

/-- There is one first load of least backlog. -/
theorem IsFirstLeast.unique {position' : Nat} {light' : Load}
    (h : f.IsFirstLeast loads position light) (h' : f.IsFirstLeast loads position' light') :
    position = position' ∧ light = light' := by
  -- of two first least positions neither can come before the other
  have hnot : ∀ {p q : Nat} {x y : Load}, f.IsFirstLeast loads p x → f.IsFirstLeast loads q y →
      ¬ p < q := by
    intro p q x y hx hy hlt
    have hmem : x ∈ loads.take q := by
      rw [List.mem_take_iff_getElem]
      obtain ⟨hp, hget⟩ := List.getElem?_eq_some_iff.mp hx.get
      exact ⟨p, by omega, hget⟩
    have hyx := hy.earlier x hmem
    exact absurd (hx.least y (List.mem_of_getElem? hy.get)) (not_le.mpr hyx)
  have hposition : position = position' :=
    Nat.le_antisymm (Nat.not_lt.mp (hnot h' h)) (Nat.not_lt.mp (hnot h h'))
  subst hposition
  exact ⟨rfl, Option.some.inj (h.get.symm.trans h'.get)⟩

/-- The search finds the first least load. -/
theorem IsFirstLeast.lightest (h : f.IsFirstLeast loads position light) :
    f.lightest? loads = some (light.index, f.backlog light) := by
  have hne : loads ≠ [] := List.ne_nil_of_mem (List.mem_of_getElem? h.get)
  obtain ⟨position', light', h', hlightest⟩ := f.exists_isFirstLeast hne
  rw [hlightest, (h.unique h').2]

/-- Where another worker gets more queued, the lightest stays the first of the lightest. -/
theorem IsFirstLeast.set (h : f.IsFirstLeast loads position light) {other : Nat} {heavier : Load}
    (hlt : f.backlog light < f.backlog heavier) (hne : other ≠ position) :
    f.IsFirstLeast (loads.set other heavier) position light where
  get := by rw [List.getElem?_set_ne hne, h.get]
  earlier := by
    intro load hload
    rw [List.take_set] at hload
    rcases List.mem_or_eq_of_mem_set hload with hload | rfl
    · exact h.earlier load hload
    · exact hlt
  least := by
    intro load hload
    rcases List.mem_or_eq_of_mem_set hload with hload | rfl
    · exact h.least load hload
    · exact hlt.le

end

section

variable {R : Type} [Field R] [LinearOrder R]
variable {f : Forecaster R} {ratio : R} {loads : List Load} {profile : Option Profile}
variable {position : Nat} {light : Load}

/-- A ratio below one counts as one. -/
theorem ratioOf_eq_max (ratio : R) : ratioOf ratio = max 1 ratio := by
  rw [ratioOf]
  split
  · rename_i h
    exact (max_eq_right h.le).symm
  · rename_i h
    exact (max_eq_left (not_lt.mp h)).symm

theorem one_le_ratioOf (ratio : R) : 1 ≤ ratioOf ratio := by
  rw [ratioOf_eq_max]
  exact le_max_left 1 ratio

/-- A spawn from outside goes to the lightest worker. -/
theorem destination_none (h : f.IsFirstLeast loads position light) :
    f.destination ratio none loads profile = .worker light.index := by
  rw [destination, h.lightest]

/-- An agent stays with a worker unless it would get out of proportion to the lightest. -/
theorem destination_some (h : f.IsFirstLeast loads position light) {spawner : Nat} {own : Load}
    (hown : loads[spawner]? = some own) :
    f.destination ratio (some spawner) loads profile =
      if f.backlog own + f.turnCost profile ≤
          ratioOf ratio * (f.backlog light + f.turnCost profile)
        then .worker spawner else .worker light.index := by
  simp only [destination, h.lightest, hown, ← not_lt, ite_not]

/-- Only a pool without workers sends a task to the shared queue. -/
theorem destination_eq_shared_iff (spawner : Option Nat) :
    f.destination ratio spawner loads profile = .shared ↔ loads = [] := by
  constructor
  · intro hshared
    by_contra hne
    obtain ⟨position, light, -, hlightest⟩ := f.exists_isFirstLeast hne
    rw [destination, hlightest] at hshared
    cases spawner with
    | none => cases hshared
    | some index =>
        dsimp only at hshared
        split_ifs at hshared
  · rintro rfl
    exact destination_nil f ratio spawner profile

/-- Ratios below one act as one. -/
theorem destination_of_ratio_le_one (h : ratio ≤ 1) (spawner : Option Nat) :
    f.destination ratio spawner loads profile = f.destination 1 spawner loads profile := by
  have hratio : ratioOf ratio = ratioOf 1 := by
    rw [ratioOf_eq_max, ratioOf_eq_max, max_eq_left h, max_self]
  rw [destination, destination, hratio]

variable [IsStrictOrderedRing R]

/-- A spawner that is left has more queued than the lightest worker, at non-negative prices. -/
theorem lt_of_out_of_proportion {own light cost : R} (hlight : 0 ≤ light) (hcost : 0 ≤ cost)
    (h : ratioOf ratio * (light + cost) < own + cost) : light < own := by
  have hscaled : 1 * (light + cost) ≤ ratioOf ratio * (light + cost) :=
    mul_le_mul_of_nonneg_right (one_le_ratioOf ratio) (add_nonneg hlight hcost)
  linarith

/-- A spawner stays in proportion when the agent gets dearer: the lightest worker's side gains at
least as much. -/
theorem in_proportion_of_cost_le {own light cost cost' : R} (hle : cost ≤ cost')
    (h : own + cost ≤ ratioOf ratio * (light + cost)) :
    own + cost' ≤ ratioOf ratio * (light + cost') := by
  have hscaled : 1 * (cost' - cost) ≤ ratioOf ratio * (cost' - cost) :=
    mul_le_mul_of_nonneg_right (one_le_ratioOf ratio) (sub_nonneg.mpr hle)
  have hsplit : ratioOf ratio * (light + cost') =
      ratioOf ratio * (light + cost) + ratioOf ratio * (cost' - cost) := by ring
  linarith

/-- What holds of the place of an agent whose spawner is a worker with a load of its own, when
some load is the lightest. -/
structure IsWeighed (f : Forecaster R) (ratio : R) (loads : List Load) (profile : Option Profile)
    (light : Load) (spawner : Nat) (own : Load) : Prop where
  /-- It is the spawner or the lightest worker. -/
  choice : f.destination ratio (some spawner) loads profile = .worker spawner ∨
    f.destination ratio (some spawner) loads profile = .worker light.index
  /-- The spawner is left only for somebody with less queued. -/
  lt_of_left : f.destination ratio (some spawner) loads profile ≠ .worker spawner →
    f.backlog light < f.backlog own
  /-- Who keeps an agent keeps a dearer one. -/
  kept_of_cost_le : f.destination ratio (some spawner) loads profile = .worker spawner →
    ∀ profile', f.turnCost profile ≤ f.turnCost profile' →
      f.destination ratio (some spawner) loads profile' = .worker spawner
  /-- Who is left is left for the same worker with more queued. -/
  left_of_backlog_le : f.destination ratio (some spawner) loads profile ≠ .worker spawner →
    ∀ heavier, f.backlog own ≤ f.backlog heavier →
      f.destination ratio (some spawner) (loads.set spawner heavier) profile ≠ .worker spawner ∧
        f.destination ratio (some spawner) (loads.set spawner heavier) profile =
          .worker light.index

/-- The destination of a spawn by a worker is weighed as the rule says. -/
theorem isWeighed (h : f.IsFirstLeast loads position light)
    (hbacklog : ∀ load ∈ loads, 0 ≤ f.backlog load) (hcost : 0 ≤ f.turnCost profile)
    {spawner : Nat} {own : Load} (hown : loads[spawner]? = some own) :
    f.IsWeighed ratio loads profile light spawner own := by
  have hlight : 0 ≤ f.backlog light := hbacklog light (List.mem_of_getElem? h.get)
  have hrule : f.destination ratio (some spawner) loads profile = _ := destination_some h hown
  -- who is left is out of proportion, and stands somewhere else than the lightest
  have hleft : f.destination ratio (some spawner) loads profile ≠ .worker spawner →
      ratioOf ratio * (f.backlog light + f.turnCost profile) <
        f.backlog own + f.turnCost profile ∧ light.index ≠ spawner := by
    intro hne
    rw [hrule] at hne
    split at hne
    · exact absurd rfl hne
    · rename_i hout
      exact ⟨not_le.mp hout, fun hindex => hne (congrArg Destination.worker hindex)⟩
  have hlt : f.destination ratio (some spawner) loads profile ≠ .worker spawner →
      f.backlog light < f.backlog own := fun hne =>
    lt_of_out_of_proportion hlight hcost (hleft hne).1
  -- kept or sent to the lightest, which is lighter then; a dearer profile keeps what was kept, a
  -- heavier own load sends away what was sent away
  refine ⟨?_, hlt, ?_, ?_⟩
  · rw [hrule]
    split
    · exact Or.inl rfl
    · exact Or.inr rfl
  · intro hkept profile' hle
    rw [destination_some h hown]
    split
    · rfl
    · rename_i hout
      rw [hrule] at hkept
      split at hkept
      · rename_i hin
        exact absurd (in_proportion_of_cost_le hle hin) hout
      · exact hkept
  · intro hne heavier hle
    obtain ⟨hout, hindex⟩ := hleft hne
    have hlt' : f.backlog light < f.backlog heavier := (hlt hne).trans_le hle
    have hposition : spawner ≠ position := by
      rintro rfl
      have hself : own = light := Option.some.inj (hown.symm.trans h.get)
      exact absurd (hlt hne) (by rw [hself]; exact lt_irrefl _)
    have hget : (loads.set spawner heavier)[spawner]? = some heavier :=
      List.getElem?_set_self (List.getElem?_eq_some_iff.mp hown).1
    have hout' : ¬ f.backlog heavier + f.turnCost profile ≤
        ratioOf ratio * (f.backlog light + f.turnCost profile) := by
      rw [not_le]
      linarith
    have hthere : f.destination ratio (some spawner) (loads.set spawner heavier) profile =
        .worker light.index := by
      rw [destination_some (h.set hlt' hposition) hget, if_neg hout']
    refine ⟨?_, hthere⟩
    rw [hthere]
    exact fun hsame => hindex (Destination.worker.inj hsame)

/-- At prices that are not negative, and whatever the ratio. The shared queue is for agents of a
pool without workers, and ratios below one act as one. In a pool with workers some load is the first
of the least backlog: an agent without a spawner goes to its worker, and one whose spawner is a
worker is weighed between the two. -/
theorem destination_weighs (hbacklog : ∀ load ∈ loads, 0 ≤ f.backlog load)
    (hcost : 0 ≤ f.turnCost profile) (ratio : R) :
    (∀ spawner, f.destination ratio spawner loads profile = .shared ↔ loads = []) ∧
      (ratio ≤ 1 → ∀ spawner,
        f.destination ratio spawner loads profile = f.destination 1 spawner loads profile) ∧
      (loads ≠ [] → ∃ position light, f.IsFirstLeast loads position light ∧
        f.destination ratio none loads profile = .worker light.index ∧
        ∀ spawner own, loads[spawner]? = some own →
          f.IsWeighed ratio loads profile light spawner own) := by
  refine ⟨destination_eq_shared_iff, destination_of_ratio_le_one, ?_⟩
  intro hne
  obtain ⟨position, light, hlight, -⟩ := f.exists_isFirstLeast hne
  refine ⟨position, light, hlight, destination_none hlight, ?_⟩
  intro spawner own hown
  exact isWeighed hlight hbacklog hcost hown

/-- Four agents are queued with the spawner and one with each of the others. At a ratio of one and
a half a cheap agent leaves for the first of the others, and a dear one stays. -/
theorem destination_weighs_of_four :
    let f : Forecaster ℚ := ⟨fun load => load.queued, fun profile => if profile.isNone then 1 else 50⟩
    let load (index queued : Nat) : Load := ⟨index, queued, 0.0, 0.0, .idle⟩
    let loads := [load 0 4, load 1 1, load 2 1]
    (∀ load ∈ loads, 0 ≤ f.backlog load) ∧ 0 ≤ f.turnCost none ∧
      f.destination (3 / 2) (some 0) loads none = .worker 1 ∧
      f.destination (3 / 2) (some 0) loads (some Profile.fresh) = .worker 0 ∧
      ∃ position light, f.IsFirstLeast loads position light ∧ light.index = 1 ∧
        f.destination (3 / 2) none loads none = .worker light.index ∧
        f.IsWeighed (3 / 2) loads none light 0 (load 0 4) := by
  intro f load loads
  have hbacklog : ∀ load ∈ loads, 0 ≤ f.backlog load := fun load _ => Nat.cast_nonneg load.queued
  have hcost : 0 ≤ f.turnCost none := by norm_num [f]
  have hleft : f.destination (3 / 2) (some 0) loads none = .worker 1 := by
    norm_num [f, loads, load, destination, lightest?, priced, lighter, ratioOf]
  have hkept : f.destination (3 / 2) (some 0) loads (some Profile.fresh) = .worker 0 := by
    norm_num [f, loads, load, destination, lightest?, priced, lighter, ratioOf]
  obtain ⟨-, -, hpool⟩ := destination_weighs hbacklog hcost (3 / 2)
  obtain ⟨position, light, hlight, hnone, hweighed⟩ := hpool (List.cons_ne_nil _ _)
  have hindex : light.index = 1 := by
    have hlightest := hlight.lightest
    norm_num [f, loads, load, lightest?, priced, lighter] at hlightest
    exact hlightest.1.symm
  exact ⟨hbacklog, hcost, hleft, hkept, position, light, hlight, hindex, hnone, hweighed 0 _ rfl⟩

end

end Troupe.Forecaster
