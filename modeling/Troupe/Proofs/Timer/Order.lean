import Mathlib.Data.List.MinMax
import Mathlib.Data.List.Nodup
import Mathlib.Data.List.Pairwise
import Mathlib.Data.Prod.Lex
import Mathlib.Order.Nat
import Troupe.Timer

/-!
# The order in which alarms fire

Alarms are in a linear order, by deadline and then by registration. A heap hands out its greatest
element, so there the comparison is the other way round; taking alarms off its top for as long as
they are due comes to the same as a pass.

* `before_iff_heapOrder` — the order of firing is the order of the heap, turned round;
* `head?_greatest` — the alarm that fires first is at the top;
* `popDue_eq_pass` — what is taken off the top is what a pass fires, in the same order;
* `isEarliest_iff` — who registers is told whether everything else in the timer is later.
-/

namespace Troupe

namespace Alarm

variable {ω : Type}

/-- Where an alarm stands in the order of firing. -/
def spot (a : Alarm ω) : Nat ×ₗ Nat := toLex (a.deadline.nanos, a.seq)

theorem spot_le_iff {a b : Alarm ω} :
    a.spot ≤ b.spot ↔ a.deadline < b.deadline ∨ a.deadline = b.deadline ∧ a.seq ≤ b.seq := by
  obtain ⟨⟨n⟩, i, v⟩ := a
  obtain ⟨⟨m⟩, j, w⟩ := b
  simp only [spot, Prod.Lex.toLex_le_toLex, Instant.mk.injEq]
  exact Iff.rfl

theorem spot_lt_iff {a b : Alarm ω} :
    a.spot < b.spot ↔ a.deadline < b.deadline ∨ a.deadline = b.deadline ∧ a.seq < b.seq := by
  obtain ⟨⟨n⟩, i, v⟩ := a
  obtain ⟨⟨m⟩, j, w⟩ := b
  simp only [spot, Prod.Lex.toLex_lt_toLex, Instant.mk.injEq]
  exact Iff.rfl

theorem deadline_le_of_spot_le {a b : Alarm ω} (h : a.spot ≤ b.spot) :
    a.deadline ≤ b.deadline := by
  rcases spot_le_iff.mp h with hlt | ⟨heq, -⟩
  · exact Nat.le_of_lt hlt
  · rw [heq]
    exact Nat.le_refl b.deadline.nanos

theorem before_iff {a b : Alarm ω} : a.before b = true ↔ a.spot ≤ b.spot := by
  rw [spot_le_iff]
  simp [before]

/-- The order of a heap that hands out its greatest element: the earlier alarm is the greater,
and of two with one deadline the one registered first. -/
def heapOrder (a b : Alarm ω) : Ordering :=
  (compare b.deadline.nanos a.deadline.nanos).then (compare b.seq a.seq)

/-- The order in which alarms go off is the order of the heap, turned round. -/
theorem before_iff_heapOrder {a b : Alarm ω} :
    a.before b = true ↔ (b.heapOrder a).isLE = true := by
  obtain ⟨⟨n⟩, i, v⟩ := a
  obtain ⟨⟨m⟩, j, w⟩ := b
  rw [before_iff, spot_le_iff, heapOrder]
  -- the deadlines decide unless they are equal
  rcases Nat.lt_trichotomy n m with hlt | rfl | hgt
  · have hcompare : compare n m = .lt := Nat.compare_eq_lt.mpr hlt
    simp only [hcompare]
    exact iff_of_true (.inl hlt) rfl
  · have hcompare : compare n n = .eq := Nat.compare_eq_eq.mpr rfl
    simp only [hcompare, Ordering.then, true_and, Nat.isLE_compare]
    exact or_iff_right (Nat.lt_irrefl n)
  · have hcompare : compare n m = .gt := Nat.compare_eq_gt.mpr hgt
    simp only [hcompare]
    refine iff_of_false ?_ Bool.false_ne_true
    rintro (hlt | ⟨heq, -⟩)
    · exact Nat.lt_asymm hgt hlt
    · exact Nat.ne_of_gt hgt (congrArg Instant.nanos heq)

end Alarm

namespace Timer

variable {ω : Type} {t : Timer ω}

/-! ## The first alarm -/

/-- The head of the timer is the alarm in the first place. -/
theorem head?_eq_argmin (t : Timer ω) : t.head? = t.alarms.argmin Alarm.spot := by
  refine congrArg (fun f => t.alarms.foldl f none) (funext₂ fun best a => ?_)
  cases best with
  | none => rfl
  | some b =>
      by_cases hlt : a.spot < b.spot
      · have hbefore : ¬ b.before a = true := fun h => not_le_of_gt hlt (Alarm.before_iff.mp h)
        simp [List.argAux, hlt, hbefore]
      · have hbefore : b.before a = true := Alarm.before_iff.mpr (not_lt.mp hlt)
        simp [List.argAux, hlt, hbefore]

theorem head?_eq_none_iff : t.head? = none ↔ t.alarms = [] := by
  rw [head?_eq_argmin, List.argmin_eq_none]

theorem mem_of_head? {a : Alarm ω} (h : t.head? = some a) : a ∈ t.alarms := by
  rw [head?_eq_argmin] at h
  exact List.argmin_mem h

theorem spot_le_of_head? {a : Alarm ω} (h : t.head? = some a) {b : Alarm ω}
    (hb : b ∈ t.alarms) : a.spot ≤ b.spot := by
  rw [head?_eq_argmin] at h
  exact List.le_of_mem_argmin hb h

/-- No alarm in the timer is greater than the first, as a heap compares them. -/
theorem head?_greatest {a : Alarm ω} (h : t.head? = some a) {b : Alarm ω} (hb : b ∈ t.alarms) :
    (b.heapOrder a).isLE = true :=
  Alarm.before_iff_heapOrder.mp (Alarm.before_iff.mpr (spot_le_of_head? h hb))

/-! ## Registering -/

/-- Takes an alarm in. -/
def book (t : Timer ω) (deadline : Instant) (w : ω) : Timer ω :=
  { t with seq := t.seq + 1, alarms := t.alarms ++ [⟨deadline, t.seq + 1, w⟩] }

/-- Whether a deadline is earlier than all that the timer knows. -/
def isEarliest (t : Timer ω) (deadline : Instant) : Bool :=
  match t.head? with
  | none => true
  | some first => decide (deadline < first.deadline)

/-- A deadline that is over or a timer that is shut down fires at once; any other is booked. -/
theorem register_eq (t : Timer ω) (now deadline : Instant) (w : ω) :
    t.register now deadline w =
      if deadline ≤ now then ⟨t, [.wake w], false⟩
      else if t.isShut then ⟨t, [.wake w], false⟩
      else ⟨t.book deadline w, [], t.isEarliest deadline⟩ :=
  rfl

/-- A deadline is the earliest if every alarm comes strictly later. -/
theorem isEarliest_iff {deadline : Instant} :
    t.isEarliest deadline = true ↔ ∀ a ∈ t.alarms, deadline < a.deadline := by
  cases hhead : t.head? with
  | none => simp [isEarliest, hhead, head?_eq_none_iff.mp hhead]
  | some first =>
      simp only [isEarliest, hhead, decide_eq_true_eq]
      constructor
      · intro hlt a ha
        have hle := Alarm.deadline_le_of_spot_le (spot_le_of_head? hhead ha)
        exact Nat.lt_of_lt_of_le hlt hle
      · intro hall
        exact hall first (mem_of_head? hhead)

/-- Alarms are numbered in the order in which they came. -/
structure Numbered (t : Timer ω) : Prop where
  rising : t.alarms.Pairwise (·.seq < ·.seq)
  le_seq : ∀ a ∈ t.alarms, a.seq ≤ t.seq

theorem numbered_new : ({} : Timer ω).Numbered :=
  ⟨List.Pairwise.nil, fun _ ha => nomatch ha⟩

/-- A booked alarm gets the next number. -/
theorem Numbered.book (h : t.Numbered) (deadline : Instant) (w : ω) :
    (t.book deadline w).Numbered := by
  constructor
  · refine List.pairwise_append.mpr ⟨h.rising, List.pairwise_singleton .., ?_⟩
    intro a ha b hb
    obtain rfl := List.mem_singleton.mp hb
    exact Nat.lt_succ_of_le (h.le_seq a ha)
  · intro a ha
    rcases List.mem_append.mp ha with ha | ha
    · exact Nat.le_succ_of_le (h.le_seq a ha)
    · obtain rfl := List.mem_singleton.mp ha
      exact Nat.le_refl _

theorem Numbered.pass (h : t.Numbered) (now : Instant) : (t.pass now).state.Numbered :=
  ⟨h.rising.filter _, fun a ha => h.le_seq a (List.mem_filter.mp ha).1⟩

theorem Numbered.shut (h : t.Numbered) : t.shut.Numbered := ⟨h.rising, h.le_seq⟩

/-- An alarm that is not earlier than all others leaves the first one the first. -/
theorem Numbered.head?_book (h : t.Numbered) {deadline : Instant}
    (hlate : t.isEarliest deadline = false) (w : ω) :
    (t.book deadline w).head? = t.head? := by
  -- an alarm of the same deadline keeps its place before the newcomer, by its number
  cases hhead : t.head? with
  | none => simp [isEarliest, hhead] at hlate
  | some first =>
      have hdeadline : first.deadline ≤ deadline := by
        simp only [isEarliest, hhead, decide_eq_false_iff_not] at hlate
        exact Nat.le_of_not_lt hlate
      have hseq : first.seq < t.seq + 1 := Nat.lt_succ_of_le (h.le_seq first (mem_of_head? hhead))
      have hafter : ¬ (⟨deadline, t.seq + 1, w⟩ : Alarm ω).spot < first.spot := by
        rw [Alarm.spot_lt_iff]
        rintro (hlt | ⟨-, hlt⟩)
        · exact Nat.not_lt_of_le hdeadline hlt
        · exact Nat.lt_asymm hseq hlt
      rw [head?_eq_argmin] at hhead ⊢
      rw [Timer.book, List.argmin_concat, hhead]
      exact if_neg hafter

/-! ## Passes -/

/-- What a pass takes out, in the order in which it fires. -/
def due (t : Timer ω) (now : Instant) : List (Alarm ω) :=
  (t.alarms.filter (t.isDue now)).mergeSort Alarm.before

theorem pass_eq (t : Timer ω) (now : Instant) :
    t.pass now =
      ⟨{ t with alarms := t.alarms.filter fun a => !t.isDue now a },
        (t.due now).map fun a => .wake a.waker, ()⟩ :=
  rfl

theorem due_perm (t : Timer ω) (now : Instant) :
    (t.due now).Perm (t.alarms.filter (t.isDue now)) :=
  List.mergeSort_perm _ _

theorem mem_due {now : Instant} {a : Alarm ω} :
    a ∈ t.due now ↔ a ∈ t.alarms ∧ t.isDue now a = true := by
  rw [(t.due_perm now).mem_iff, List.mem_filter]

theorem isDue_iff {now : Instant} {a : Alarm ω} :
    t.isDue now a = true ↔ a.deadline ≤ now ∨ t.isShut = true := by
  simp [isDue, or_comm]

/-- The due alarms stand in the order of their places. -/
theorem pairwise_due (t : Timer ω) (now : Instant) :
    (t.due now).Pairwise (fun a b => a.spot ≤ b.spot) := by
  have htrans : ∀ a b c : Alarm ω, a.before b = true → b.before c = true → a.before c = true := by
    intro a b c hab hbc
    exact Alarm.before_iff.mpr (le_trans (Alarm.before_iff.mp hab) (Alarm.before_iff.mp hbc))
  have htotal : ∀ a b : Alarm ω, (a.before b || b.before a) = true := by
    intro a b
    rw [Bool.or_eq_true, Alarm.before_iff, Alarm.before_iff]
    exact le_total a.spot b.spot
  exact (List.pairwise_mergeSort htrans htotal _).imp Alarm.before_iff.mp

/-- No two alarms have the same number. -/
theorem Numbered.eq_of_seq_eq (h : t.Numbered) {a b : Alarm ω} (ha : a ∈ t.alarms)
    (hb : b ∈ t.alarms) (hseq : a.seq = b.seq) : a = b := by
  have hdistinct : (t.alarms.map Alarm.seq).Nodup :=
    List.pairwise_map.mpr (h.rising.imp Nat.ne_of_lt)
  exact List.inj_on_of_nodup_map hdistinct ha hb hseq

theorem Numbered.eq_of_spot_eq (h : t.Numbered) {a b : Alarm ω} (ha : a ∈ t.alarms)
    (hb : b ∈ t.alarms) (hspot : a.spot = b.spot) : a = b :=
  h.eq_of_seq_eq ha hb (congrArg (fun p => (ofLex p).2) hspot)

theorem Numbered.nodup (h : t.Numbered) : t.alarms.Nodup :=
  h.rising.imp fun hlt => ne_of_apply_ne Alarm.seq (Nat.ne_of_lt hlt)

/-- The alarms of a pass fire by deadline and then by registration. -/
theorem Numbered.pairwise_due (h : t.Numbered) (now : Instant) :
    (t.due now).Pairwise (fun a b => a.spot < b.spot) := by
  have hnodup : (t.due now).Nodup := (t.due_perm now).nodup_iff.mpr (h.nodup.filter _)
  refine List.Pairwise.imp ?_ (List.pairwise_and_iff.mpr ⟨t.pairwise_due now,
    List.Pairwise.and_mem.mp hnodup⟩)
  rintro a b ⟨hle, ha, hb, hne⟩
  refine lt_of_le_of_ne hle fun heq => hne ?_
  exact h.eq_of_spot_eq (mem_due.mp ha).1 (mem_due.mp hb).1 heq

/-! ## Taking alarms off the top -/

/-- The timer without the alarm of a number. -/
def drop (t : Timer ω) (seq : Nat) : Timer ω :=
  { t with alarms := t.alarms.filter fun a => a.seq != seq }

/-- Takes the first alarm out for as long as it is due, so many times at most. -/
def popDue (now : Instant) : (tries : Nat) → Timer ω → List (Alarm ω) × Timer ω
  | 0, t => ([], t)
  | tries + 1, t =>
    match t.head? with
    | none => ([], t)
    | some a =>
      if t.isDue now a then
        let later := popDue now tries (t.drop a.seq)
        (a :: later.1, later.2)
      else ([], t)

theorem Numbered.drop (h : t.Numbered) (seq : Nat) : (t.drop seq).Numbered :=
  ⟨h.rising.filter _, fun a ha => h.le_seq a (List.mem_filter.mp ha).1⟩

/-- If the first alarm is not due, none is. -/
theorem not_isDue_of_head? {now : Instant} {first : Alarm ω} (hhead : t.head? = some first)
    (hdue : ¬ t.isDue now first = true) {a : Alarm ω} (ha : a ∈ t.alarms) :
    ¬ t.isDue now a = true := by
  rw [isDue_iff, not_or] at hdue ⊢
  refine ⟨fun hle => hdue.1 ?_, hdue.2⟩
  exact Nat.le_trans (Alarm.deadline_le_of_spot_le (spot_le_of_head? hhead ha)) hle

theorem due_eq_nil {now : Instant} (hnone : ∀ a ∈ t.alarms, ¬ t.isDue now a = true) :
    t.due now = [] := by
  rw [due, List.filter_eq_nil_iff.mpr hnone, List.mergeSort_nil]

theorem pass_eq_self {now : Instant} (hnone : ∀ a ∈ t.alarms, ¬ t.isDue now a = true) :
    (t.pass now).state = t := by
  have hkept : t.alarms.filter (fun a => !t.isDue now a) = t.alarms :=
    List.filter_eq_self.mpr fun a ha => by simp [hnone a ha]
  rw [pass_eq, hkept]

/-- If the first alarm is due, it is the first to fire. -/
theorem Numbered.due_eq_cons (h : t.Numbered) {now : Instant} {first : Alarm ω}
    (hhead : t.head? = some first) (hdue : t.isDue now first = true) :
    t.due now = first :: (t.drop first.seq).due now := by
  have hfirst := mem_of_head? hhead
  -- taken one by one or all at once, the same alarms are due
  have hperm : (t.due now).Perm (first :: (t.drop first.seq).due now) := by
    refine (List.perm_ext_iff_of_nodup ?_ ?_).mpr fun a => ?_
    · exact (t.due_perm now).nodup_iff.mpr (h.nodup.filter _)
    · refine List.nodup_cons.mpr ⟨fun hmem => ?_, ?_⟩
      · simpa using (List.mem_filter.mp (mem_due.mp hmem).1).2
      · exact ((t.drop first.seq).due_perm now).nodup_iff.mpr
          ((h.drop first.seq).nodup.filter _)
    · rw [List.mem_cons, mem_due, mem_due]
      constructor
      · rintro ⟨ha, hadue⟩
        by_cases hseq : a.seq = first.seq
        · exact .inl (h.eq_of_seq_eq ha hfirst hseq)
        · exact .inr ⟨List.mem_filter.mpr ⟨ha, by simpa using hseq⟩, hadue⟩
      · rintro (rfl | ⟨ha, hadue⟩)
        · exact ⟨hfirst, hdue⟩
        · exact ⟨(List.mem_filter.mp ha).1, hadue⟩
  -- two orderings of the same alarms by place are the same
  refine List.Perm.eq_of_pairwise ?_ (t.pairwise_due now) ?_ hperm
  · intro a b ha hb hab hba
    have hb' := hperm.mem_iff.mpr hb
    exact h.eq_of_spot_eq (mem_due.mp ha).1 (mem_due.mp hb').1 (le_antisymm hab hba)
  · refine List.pairwise_cons.mpr ⟨fun a ha => ?_, (t.drop first.seq).pairwise_due now⟩
    exact spot_le_of_head? hhead (List.mem_filter.mp (mem_due.mp ha).1).1

/-- A pass over what is left after the first one is popped leaves the same. -/
theorem Numbered.pass_drop (h : t.Numbered) {now : Instant} {first : Alarm ω}
    (hhead : t.head? = some first) (hdue : t.isDue now first = true) :
    ((t.drop first.seq).pass now).state = (t.pass now).state := by
  have hkept : (t.drop first.seq).alarms.filter (fun a => !t.isDue now a) =
      t.alarms.filter fun a => !t.isDue now a := by
    rw [Timer.drop, List.filter_filter]
    refine List.filter_congr fun a ha => ?_
    by_cases hseq : a.seq = first.seq
    · obtain rfl := h.eq_of_seq_eq ha (mem_of_head? hhead) hseq
      simp [hdue]
    · simp [hseq]
  exact congrArg (fun alarms => { t with alarms }) hkept

/-- Taking alarms off the top while they are due makes a pass. -/
theorem Numbered.popDue_eq_pass (h : t.Numbered) (now : Instant) {tries : Nat}
    (henough : t.alarms.length ≤ tries) :
    popDue now tries t = (t.due now, (t.pass now).state) := by
  -- on the tries: each pops one alarm or finds that none is due
  induction tries generalizing t with
  | zero =>
      have hnil : t.alarms = [] := List.length_eq_zero_iff.mp (Nat.le_zero.mp henough)
      have hnone : ∀ a ∈ t.alarms, ¬ t.isDue now a = true := fun a ha => nomatch hnil ▸ ha
      rw [popDue, due_eq_nil hnone, pass_eq_self hnone]
  | succ tries ih =>
      rw [popDue]
      cases hhead : t.head? with
      | none =>
          have hnil := head?_eq_none_iff.mp hhead
          have hnone : ∀ a ∈ t.alarms, ¬ t.isDue now a = true := fun a ha => nomatch hnil ▸ ha
          rw [due_eq_nil hnone, pass_eq_self hnone]
      | some first =>
          by_cases hdue : t.isDue now first = true
          · have hfewer : (t.drop first.seq).alarms.length < t.alarms.length :=
              List.length_filter_lt_length_iff_exists.mpr
                ⟨first, mem_of_head? hhead, by simp⟩
            have hrest := ih (h.drop first.seq) (by omega)
            simp only [hdue, if_true, hrest]
            rw [h.due_eq_cons hhead hdue, h.pass_drop hhead hdue]
          · have hnone : ∀ a ∈ t.alarms, ¬ t.isDue now a = true :=
              fun a ha => not_isDue_of_head? hhead hdue ha
            simp only [hdue]
            rw [due_eq_nil hnone, pass_eq_self hnone]
            rfl

end Timer

end Troupe
