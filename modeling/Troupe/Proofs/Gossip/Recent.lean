import Mathlib.Data.Finset.Card
import Mathlib.Data.List.DropRight
import Troupe.Gossip.Memory
import Troupe.Proofs.History

/-!
# A memory holds what was accepted last

A memory keeps its identities twice, as a set for looking them up and as a queue for forgetting
them. Whatever it is shown, the two hold the same identities, and those are the last ones it
accepted, as many as it has room for. So an identity comes through a second time only after it was
crowded out by that many others.

* `order_makeRoom`, `seen_makeRoom` — what making room leaves in the queue and in the set;
* `Diary.Kept.next` — set, queue and acceptances stay in step whatever is observed;
* `diary_isRecent` — the memory answers by the last identities accepted.
-/

namespace Troupe

namespace Memory

variable {ι : Type} [DecidableEq ι]

/-! ## What is observed -/

/-- A memory with the identities it accepted, oldest first. -/
structure Diary (ι : Type) where
  memory : Memory ι
  accepted : List ι

/-- One more identity is observed; it is accepted if the memory calls it new. -/
def Diary.next (d : Diary ι) (id : ι) : Diary ι :=
  let (memory, isNew) := d.memory.observe id
  ⟨memory, if isNew then d.accepted ++ [id] else d.accepted⟩

/-- What comes of observing identities one after another. -/
def diary (capacity : Nat) (ids : List ι) : Diary ι := ids.foldl Diary.next ⟨ofCapacity capacity, []⟩

/-- Since an identity was accepted before, so many others have been. -/
def Rested (others : Nat) (earlier : List ι) (id : ι) : Prop :=
  ∀ before between, earlier = before ++ id :: between →
    others ≤ (between.toFinset.erase id).card

/-! ## Making room -/

/-- Set and queue hold the same identities, each once, and no more than there is room for. -/
structure InStep (m : Memory ι) : Prop where
  room : 0 < m.capacity
  perm : m.seen.Perm m.order
  nodup : m.order.Nodup
  length_le : m.order.length ≤ m.capacity

variable {m : Memory ι}

/-- Making room leaves the capacity. -/
theorem capacity_makeRoom (m : Memory ι) : m.makeRoom.capacity = m.capacity := by
  unfold makeRoom
  split
  · cases m.order <;> rfl
  · rfl

/-- All but the oldest stay when the memory is full, and all stay when it is not. -/
theorem order_makeRoom (h : m.InStep) : m.makeRoom.order = m.order.rtake (m.capacity - 1) := by
  have hroom := h.room
  have hle := h.length_le
  unfold makeRoom
  -- only a full queue loses an identity, its oldest
  by_cases hfull : m.order.length = m.capacity
  · rw [if_pos hfull]
    cases horder : m.order with
    | nil =>
        rw [horder, List.length_nil] at hfull
        omega
    | cons oldest rest =>
        rw [horder, List.length_cons] at hfull
        have hone : rest.length + 1 - (m.capacity - 1) = 1 := by omega
        rw [List.rtake, List.length_cons, hone]
        rfl
  · rw [if_neg hfull]
    have hnone : m.order.length - (m.capacity - 1) = 0 := by omega
    rw [List.rtake, hnone, List.drop_zero]

/-- The set forgets what the queue forgets. -/
theorem seen_makeRoom (h : m.InStep) : m.makeRoom.seen.Perm m.makeRoom.order := by
  unfold makeRoom
  split
  · cases horder : m.order with
    | nil => exact h.perm
    | cons oldest rest =>
        have hperm : m.seen.Perm (oldest :: rest) := horder ▸ h.perm
        have hnodup : (oldest :: rest).Nodup := horder ▸ h.nodup
        -- the oldest stands only once in the queue, so the rest passes the filter as a whole
        have hrest : (oldest :: rest).filter (· ≠ oldest) = rest := by
          have hne : ∀ id ∈ rest, id ≠ oldest := by
            intro id hid heq
            exact (List.nodup_cons.mp hnodup).1 (heq ▸ hid)
          simpa using hne
        have hfilter := hperm.filter (fun id => decide (id ≠ oldest))
        rw [hrest] at hfilter
        exact hfilter
  · exact h.perm

/-! ## Observing -/

/-- The memory holds an identity exactly if it stands in the queue. -/
theorem contains_iff (h : m.InStep) (id : ι) : m.contains id = true ↔ id ∈ m.order := by
  rw [contains, List.contains_iff_mem]
  exact h.perm.mem_iff

/-- An identity that is not remembered is accepted, in the place that was made for it. -/
theorem observe_new {id : ι} (hnew : m.contains id = false) :
    m.observe id =
      ({ m.makeRoom with seen := id :: m.makeRoom.seen, order := m.makeRoom.order ++ [id] }, true) := by
  rw [observe, if_neg (Bool.eq_false_iff.mp hnew)]

/-- Observing leaves set and queue in step. -/
theorem InStep.observe (h : m.InStep) (id : ι) : (m.observe id).1.InStep := by
  cases hknown : m.contains id with
  | true =>
      rw [observe_seen m id hknown]
      exact h
  | false =>
      have hroom := h.room
      have hcapacity := capacity_makeRoom m
      -- making room leaves a place in the queue, so the new identity fits
      have hfewer : m.makeRoom.order.length ≤ m.capacity - 1 := by
        rw [order_makeRoom h, List.rtake, List.length_drop]
        omega
      have hnotMem : id ∉ m.makeRoom.order := by
        intro hmem
        rw [order_makeRoom h] at hmem
        have hold := (contains_iff h id).mpr (List.mem_of_mem_drop hmem)
        rw [hknown] at hold
        exact Bool.false_ne_true hold
      have hnodup : m.makeRoom.order.Nodup := by
        rw [order_makeRoom h]
        exact h.nodup.sublist (List.drop_sublist _ _)
      rw [observe_new hknown]
      constructor
      · show 0 < m.makeRoom.capacity
        omega
      · exact ((seen_makeRoom h).cons id).trans (List.perm_append_singleton id _).symm
      · exact hnodup.append (List.nodup_singleton id) (List.disjoint_singleton.mpr hnotMem)
      · show (m.makeRoom.order ++ [id]).length ≤ m.makeRoom.capacity
        rw [List.length_append, List.length_singleton]
        omega

/-! ## Every run -/

namespace Diary

/-- The queue holds the last identities accepted, and each of these was accepted only after enough
others. -/
structure Kept (room : Nat) (d : Diary ι) : Prop where
  inStep : d.memory.InStep
  capacity_eq : d.memory.capacity = room
  order_eq : d.memory.order = d.accepted.rtake room
  rested : Throughout (Rested room) d.accepted

variable {room : Nat} {d : Diary ι}

/-- An empty memory keeps up with having accepted nothing. -/
theorem kept_start (capacity : Nat) :
    (⟨ofCapacity capacity, []⟩ : Diary ι).Kept (max capacity 1) where
  inStep := ⟨Nat.le_max_right capacity 1, .nil, List.nodup_nil, Nat.zero_le _⟩
  capacity_eq := rfl
  order_eq := (List.rtake_nil _).symm
  rested := throughout_nil

/-- What is not remembered has been crowded out: behind its last acceptance there is room for all
that is remembered, and those are others. -/
theorem Kept.rested_of_new (h : d.Kept room) {id : ι} (hnew : id ∉ d.memory.order) :
    Rested room d.accepted id := by
  intro before between hsplit
  have horder : d.memory.order = (before ++ id :: between).rtake room := hsplit ▸ h.order_eq
  -- were there fewer since, the window would still reach back to the identity
  have hlong : room ≤ between.length := by
    by_contra hshort
    apply hnew
    rw [horder, List.rtake, List.length_append, List.length_cons,
      List.drop_append_of_le_length (by omega)]
    exact List.mem_append_right _ List.mem_cons_self
  have hwindow : d.memory.order = between.rtake room := by
    have hdrop : (before ++ id :: between).length - room =
        (before ++ [id]).length + (between.length - room) := by
      simp only [List.length_append, List.length_cons, List.length_nil]
      omega
    have hassoc : before ++ id :: between = (before ++ [id]) ++ between := by simp
    rw [horder, List.rtake, hdrop, hassoc, List.drop_length_add_append]
    rfl
  have hcard : d.memory.order.toFinset.card = room := by
    rw [List.toFinset_card_of_nodup h.inStep.nodup, hwindow, List.rtake, List.length_drop]
    omega
  -- the queue is a window of the right size that the identity is not in
  have hothers : d.memory.order.toFinset ⊆ between.toFinset.erase id := by
    intro other hother
    have hmem : other ∈ d.memory.order := List.mem_toFinset.mp hother
    have hne : other ≠ id := fun heq => hnew (heq ▸ hmem)
    have hbetween : other ∈ between := List.mem_of_mem_drop (hwindow ▸ hmem)
    exact Finset.mem_erase.mpr ⟨hne, List.mem_toFinset.mpr hbetween⟩
  rw [← hcard]
  exact Finset.card_le_card hothers

/-- One more identity, new or known, keeps the memory in step with what was accepted. -/
theorem Kept.next (h : d.Kept room) (id : ι) : (d.next id).Kept room := by
  -- a known identity changes nothing; a new one pushes out the oldest if there is no room
  cases hknown : d.memory.contains id with
  | true =>
      have hsame : d.next id = d := by
        simp only [Diary.next, observe_seen d.memory id hknown]
        rfl
      rw [hsame]
      exact h
  | false =>
      have hnotMem : id ∉ d.memory.order := by
        rw [← contains_iff h.inStep, hknown]
        exact Bool.false_ne_true
      have hafter := h.inStep.observe id
      have hnext : d.next id = ⟨(d.memory.observe id).1, d.accepted ++ [id]⟩ := by
        simp only [Diary.next, observe_new hknown, if_true]
      rw [hnext]
      refine ⟨hafter, ?_, ?_, h.rested.snoc (h.rested_of_new hnotMem)⟩
      · rw [observe_new hknown]
        exact (capacity_makeRoom d.memory).trans h.capacity_eq
      · -- one place of the window goes to the newcomer
        have hroom : room = room - 1 + 1 := by
          have hpos := h.inStep.room
          rw [h.capacity_eq] at hpos
          omega
        have hwindow : d.memory.makeRoom.order = d.accepted.rtake (room - 1) := by
          rw [order_makeRoom h.inStep, h.capacity_eq, h.order_eq]
          simp only [List.rtake, List.length_drop, List.drop_drop]
          congr 1
          omega
        rw [observe_new hknown]
        show d.memory.makeRoom.order ++ [id] = (d.accepted ++ [id]).rtake room
        rw [hwindow, hroom, List.rtake_concat_succ]
        rfl

theorem kept_run (h : d.Kept room) (ids : List ι) : (ids.foldl Diary.next d).Kept room := by
  induction ids generalizing d with
  | nil => exact h
  | cons id rest ih => exact ih (h.next id)

/-- A memory answers by the last identities it accepted, as many as it has room for. -/
structure IsRecent (room : Nat) (d : Diary ι) : Prop where
  /-- The queue holds them, oldest first, and the set holds the same. -/
  order_eq : d.memory.order = d.accepted.rtake room
  seen_perm : d.memory.seen.Perm d.memory.order
  nodup : d.memory.order.Nodup
  length_eq : d.memory.length = min room d.accepted.length
  contains_iff : ∀ id, d.memory.contains id = true ↔ id ∈ d.accepted.rtake room
  refused_iff : ∀ id, (d.memory.observe id).2 = false ↔ id ∈ d.accepted.rtake room
  /-- Refusing changes nothing, so neither does observing at once again. -/
  refused_eq : ∀ id, (d.memory.observe id).2 = false → (d.memory.observe id).1 = d.memory
  again_eq : ∀ id, (d.memory.observe id).1.observe id = ((d.memory.observe id).1, false)
  /-- Nothing comes through again before so many others did. -/
  rested : Throughout (Rested room) d.accepted

end Diary

/-- Whatever a memory is shown, it remembers the last identities it accepted, and it accepts what
it does not remember. -/
theorem diary_isRecent (capacity : Nat) (ids : List ι) :
    (diary capacity ids).IsRecent (max 1 capacity) := by
  have h : (diary capacity ids).Kept (max 1 capacity) := by
    rw [Nat.max_comm]
    exact Diary.kept_run (Diary.kept_start capacity) ids
  generalize diary capacity ids = d at h ⊢
  generalize max 1 capacity = room at h ⊢
  -- the queue is the window of what was accepted last, so it answers for what is known
  have hcontains : ∀ id, d.memory.contains id = true ↔ id ∈ d.accepted.rtake room := by
    intro id
    rw [Memory.contains_iff h.inStep, h.order_eq]
  have hrefused : ∀ id, (d.memory.observe id).2 = false ↔ d.memory.contains id = true := by
    intro id
    cases hknown : d.memory.contains id with
    | true => simp [observe_seen d.memory id hknown]
    | false => simp [observe_new hknown]
  constructor
  · exact h.order_eq
  · exact h.inStep.perm
  · exact h.inStep.nodup
  · rw [length, h.order_eq, List.rtake, List.length_drop]
    omega
  · exact hcontains
  · intro id
    rw [hrefused, hcontains]
  · intro id hid
    rw [observe_seen d.memory id ((hrefused id).mp hid)]
  · intro id
    exact observe_seen _ id (contains_observe d.memory id)
  · exact h.rested

/-- Room for two: the first identity is accepted again once two others have crowded it out. -/
example : (diary 2 [1, 2, 1, 3, 1] : Diary Nat).accepted = [1, 2, 3, 1] := by decide

end Memory

end Troupe
