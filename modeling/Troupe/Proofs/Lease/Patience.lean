import Mathlib.Data.Nat.Find
import Troupe.Lease.Waiting
import Troupe.Proofs.Lease.Exactness

/-!
# A claimant that waits

A claimant that waits makes one attempt after the other, and others go on using the table
between them. The clock may show anything as long as it never goes back: the end of a
lease and the deadline may fall between any two of its readings.

* `acquireAmong_empty` — a claimant with nobody else around is one that simply waits;
* `attemptAmong_pauses`, `attemptAmong_gives_up`, `attemptAmong_answers` — what one attempt
  leads to;
* `isPatient` — waiting comes to an end, with the first answer that is not a conflict or
  with a conflict found past the deadline, and an attempt that failed leaves no trace.
-/

namespace Troupe

/-! ## Readings written down beforehand -/

/-- How many readings a claimant has taken, and its pauses with the reading before each. -/
structure Diary where
  taken : Nat := 0
  pauses : List (Instant × Span) := []
deriving DecidableEq

/-- A clock that shows one reading after the other of a script. -/
def scripted (readings : Nat → Instant) : TimeSource Diary where
  read d := (readings d.taken, { d with taken := d.taken + 1 })
  sleep pause d := { d with pauses := d.pauses ++ [(readings (d.taken - 1), pause)] }

namespace LeaseTable

variable {κ : Type}

/-! ## Waiting among others -/

/-- The table after calls of others. -/
def meanwhile (t : LeaseTable) (calls : List Call) : LeaseTable :=
  calls.foldl (fun t call => (t.serve call.now call.request).1) t

/-- `attempt`, while others make the calls `company i` between the attempts `i` and `i + 1`. -/
def attemptAmong (src : TimeSource κ) (company : Nat → List Call) (key : String)
    (holder : AgentId) (ttl : Span) (deadline : Instant) : (attempts made : Nat) → κ →
    LeaseTable → κ × LeaseTable × Option (Except Fault Lease)
  | 0, _, c, t => (c, t, none)
  | left + 1, made, c, t =>
    match t.acquireOn src c key holder ttl with
    | (c, t, .error (.leaseConflict k h)) =>
      let (now, c) := src.read c
      if now < deadline then
        let (again, c) := src.read c
        let pause := t.terms.retry.shorter (deadline.since again)
        attemptAmong src company key holder ttl deadline left (made + 1) (src.sleep pause c)
          (t.meanwhile (company made))
      else (c, t, some (.error (.leaseConflict k h)))
    | (c, t, result) => (c, t, some result)

/-- `acquireWithin`, while others make calls between the attempts. -/
def acquireAmong (src : TimeSource κ) (company : Nat → List Call) (attempts : Nat) (c : κ)
    (t : LeaseTable) (key : String) (holder : AgentId) (ttl wait : Span) :
    κ × LeaseTable × Option (Except Fault Lease) :=
  let (now, c) := src.read c
  attemptAmong src company key holder ttl (deadlineAfter now wait) attempts 0 c t

/-- Among no other callers, the attempts are those of the claimant alone. -/
theorem attemptAmong_empty (src : TimeSource κ) (key : String) (holder : AgentId) (ttl : Span)
    (deadline : Instant) (attempts made : Nat) (c : κ) (t : LeaseTable) :
    attemptAmong src (fun _ => []) key holder ttl deadline attempts made c t =
      attempt src key holder ttl deadline attempts c t := by
  induction attempts generalizing made c t with
  | zero => rfl
  | succ left ih =>
      unfold attemptAmong attempt
      rcases t.acquireOn src c key holder ttl with ⟨c, t, fault | lease⟩
      · cases fault with
        | leaseConflict k h => simp only [ih, meanwhile, List.foldl_nil]
        | _ => rfl
      · rfl

/-- With nobody else around a claimant simply waits. -/
theorem acquireAmong_empty (src : TimeSource κ) (attempts : Nat) (c : κ) (t : LeaseTable)
    (key : String) (holder : AgentId) (ttl wait : Span) :
    acquireAmong src (fun _ => []) attempts c t key holder ttl wait =
      acquireWithin src attempts c t key holder ttl wait :=
  attemptAmong_empty src key holder ttl _ attempts 0 _ t

/-! ## What the attempts meet -/

/-- No request changes the terms of the table. -/
theorem terms_serve (t : LeaseTable) (now : Instant) (request : Request) :
    (t.serve now request).1.terms = t.terms := by
  have h := served t now request
  generalize t.serve now request = o at h
  cases h <;> rfl

/-- What others ask in between changes none of the terms either. -/
theorem terms_meanwhile (t : LeaseTable) (calls : List Call) :
    (t.meanwhile calls).terms = t.terms := by
  induction calls generalizing t with
  | nil => rfl
  | cons call rest ih => exact (ih _).trans (terms_serve t call.now call.request)

/-- A claim's own table, after what others did alone before attempt `i`. -/
def met (t : LeaseTable) (company : Nat → List Call) : Nat → LeaseTable
  | 0 => t
  | i + 1 => (met t company i).meanwhile (company i)

/-- The terms an attempt meets are those the table started with. -/
theorem terms_met (t : LeaseTable) (company : Nat → List Call) (i : Nat) :
    (t.met company i).terms = t.terms := by
  induction i with
  | zero => rfl
  | succ i ih => exact (terms_meanwhile _ _).trans ih

/-- Whether an answer is that the key is held. -/
def Conflicts (result : Except Fault Lease) : Prop :=
  ∃ key holder, result = .error (.leaseConflict key holder)

/-- A claim refused for a conflict was one of some length, and leaves no trace. -/
theorem acquire_of_conflicts {t : LeaseTable} {now : Instant} {key : String} {holder : AgentId}
    {ttl : Span} (h : Conflicts (t.acquire now key holder ttl).2) :
    ttl ≠ Span.zero ∧ (t.acquire now key holder ttl).1 = t := by
  obtain ⟨k, other, hresult⟩ := h
  have hexact := acquire_claimsExactly t now key holder ttl
  exact ⟨((hexact.conflicting k other).mp hresult).1, (hexact.refused _ hresult).1⟩

/-- A claim of some length takes one reading and is the claim at that reading. -/
theorem acquireOn_eq {src : TimeSource κ} {c : κ} {t : LeaseTable} {key : String}
    {holder : AgentId} {ttl : Span} (hz : ttl ≠ Span.zero) :
    t.acquireOn src c key holder ttl =
      ((src.read c).2, t.acquire (src.read c).1 key holder ttl) :=
  if_neg (hz ∘ Span.isZero_iff.mp)

/-- A claim of no length is answered the same at every reading. -/
theorem acquireOn_answer (src : TimeSource κ) (c : κ) (t : LeaseTable) (key : String)
    (holder : AgentId) (ttl : Span) :
    (t.acquireOn src c key holder ttl).2 = t.acquire (src.read c).1 key holder ttl := by
  by_cases hz : ttl = Span.zero
  · rw [acquireOn, acquire, if_pos (Span.isZero_iff.mpr hz), if_pos (Span.isZero_iff.mpr hz)]
  · rw [acquireOn_eq hz]

section Steps

variable (src : TimeSource κ) (c : κ) (t : LeaseTable) {company : Nat → List Call}
  {key : String} {holder : AgentId} {ttl : Span} {deadline : Instant} {left made : Nat}

/-- A claimant refused before the deadline pauses and tries again. -/
theorem attemptAmong_pauses {k : String} {other : AgentId}
    (hrun : t.acquire (src.read c).1 key holder ttl = (t, .error (.leaseConflict k other)))
    (hearly : (src.read (src.read c).2).1 < deadline) :
    attemptAmong src company key holder ttl deadline (left + 1) made c t =
      let (again, later) := src.read (src.read (src.read c).2).2
      attemptAmong src company key holder ttl deadline left (made + 1)
        (src.sleep (t.terms.retry.shorter (deadline.since again)) later)
        (t.meanwhile (company made)) := by
  have hz : ttl ≠ Span.zero := (acquire_of_conflicts ⟨k, other, congrArg Prod.snd hrun⟩).1
  simp only [attemptAmong, acquireOn_eq hz, hrun, if_pos hearly]

/-- One refused past the deadline gives up. -/
theorem attemptAmong_gives_up {k : String} {other : AgentId}
    (hrun : t.acquire (src.read c).1 key holder ttl = (t, .error (.leaseConflict k other)))
    (hlate : ¬(src.read (src.read c).2).1 < deadline) :
    attemptAmong src company key holder ttl deadline (left + 1) made c t =
      ((src.read (src.read c).2).2, t, some (.error (.leaseConflict k other))) := by
  have hz : ttl ≠ Span.zero := (acquire_of_conflicts ⟨k, other, congrArg Prod.snd hrun⟩).1
  simp only [attemptAmong, acquireOn_eq hz, hrun, if_neg hlate]

/-- Any other answer is passed on. -/
theorem attemptAmong_answers (h : ¬Conflicts (t.acquire (src.read c).1 key holder ttl).2) :
    attemptAmong src company key holder ttl deadline (left + 1) made c t =
      ((t.acquireOn src c key holder ttl).1, (t.acquire (src.read c).1 key holder ttl).1,
        some (t.acquire (src.read c).1 key holder ttl).2) := by
  rw [← acquireOn_answer] at h ⊢
  rw [attemptAmong]
  generalize t.acquireOn src c key holder ttl = o at h ⊢
  rcases o with ⟨c, t, fault | lease⟩
  · cases fault with
    | leaseConflict k other => exact absurd ⟨k, other, rfl⟩ h
    | _ => rfl
  · rfl

end Steps

/-! ## One attempt after the other -/

/-- A claim that waits, made among others by a clock that follows a script. -/
structure Claimant where
  readings : Nat → Instant
  company : Nat → List Call
  table : LeaseTable
  key : String
  holder : AgentId
  ttl : Span
  wait : Span

namespace Claimant

variable (v : Claimant)

/-- The instant at which the claimant gives up. -/
def deadline : Instant := deadlineAfter (v.readings 0) v.wait

/-- The table that attempt `i` meets when those before it left no trace. -/
def met (i : Nat) : LeaseTable := v.table.met v.company i

/-- Attempt `i`, at a reading of its own. -/
def attempted (i : Nat) : LeaseTable × Except Fault Lease :=
  (v.met i).acquire (v.readings (3 * i + 1)) v.key v.holder v.ttl

/-- The reading by which the claimant decides whether to go on after attempt `i`. -/
def checked (i : Nat) : Instant := v.readings (3 * i + 2)

/-- The reading before the pause after attempt `i`, and the pause. -/
def paused (i : Nat) : Instant × Span :=
  let before := v.readings (3 * i + 3)
  (before, v.table.terms.retry.shorter (v.deadline.since before))

/-- The diary at the beginning of attempt `i`. -/
def diary (i : Nat) : Diary := ⟨3 * i + 1, (List.range i).map v.paused⟩

/-- Attempt `i` is the last one. -/
def Settles (i : Nat) : Prop := ¬Conflicts (v.attempted i).2 ∨ v.deadline ≤ v.checked i

/-- The attempts from number `i` on, at most so many. -/
def attemptsFrom (attempts i : Nat) : Diary × LeaseTable × Option (Except Fault Lease) :=
  attemptAmong (scripted v.readings) v.company v.key v.holder v.ttl v.deadline attempts i
    (v.diary i) (v.met i)

/-- What becomes of the claim in at most so many attempts. -/
def outcome (attempts : Nat) : Diary × LeaseTable × Option (Except Fault Lease) :=
  acquireAmong (scripted v.readings) v.company attempts {} v.table v.key v.holder v.ttl v.wait

theorem outcome_eq (attempts : Nat) : v.outcome attempts = v.attemptsFrom attempts 0 := rfl

theorem diary_succ (i : Nat) :
    v.diary (i + 1) = ⟨3 * i + 4, (v.diary i).pauses ++ [v.paused i]⟩ := by
  simp [diary, List.range_succ]
  omega

/-- An attempt that is not the last leaves the next one what others make of the table. -/
theorem attemptsFrom_of_not_settles {i : Nat} (h : ¬v.Settles i) (left : Nat) :
    v.attemptsFrom (left + 1) i = v.attemptsFrom left (i + 1) := by
  rw [Settles, not_or, not_not] at h
  obtain ⟨hconflicts, hearly⟩ := h
  obtain ⟨-, htable⟩ := acquire_of_conflicts hconflicts
  obtain ⟨k, other, hanswer⟩ := hconflicts
  have hretry : (v.met i).terms.retry = v.table.terms.retry :=
    congrArg LeaseTerms.retry (terms_met v.table v.company i)
  unfold attemptsFrom
  rw [attemptAmong_pauses (scripted v.readings) (v.diary i) (v.met i)
    (Prod.ext htable hanswer) (Nat.lt_of_not_le hearly), diary_succ, hretry]
  rfl

/-- The last attempt answers for all of them. -/
theorem attemptsFrom_of_settles {i : Nat} (h : v.Settles i) (left : Nat) :
    (v.attemptsFrom (left + 1) i).1.pauses = (v.diary i).pauses ∧
      (v.attemptsFrom (left + 1) i).2 = ((v.attempted i).1, some (v.attempted i).2) := by
  unfold attemptsFrom
  -- a conflict settles only because the deadline passed, anything else by its answer
  by_cases hconflicts : Conflicts (v.attempted i).2
  · have hlate : v.deadline ≤ v.checked i := h.resolve_left (not_not_intro hconflicts)
    obtain ⟨-, htable⟩ := acquire_of_conflicts hconflicts
    obtain ⟨k, other, hanswer⟩ := hconflicts
    have hrun : v.attempted i = (v.met i, .error (.leaseConflict k other)) :=
      Prod.ext htable hanswer
    rw [attemptAmong_gives_up (scripted v.readings) (v.diary i) (v.met i) hrun (Nat.not_lt.mpr hlate), hrun]
    exact ⟨rfl, rfl⟩
  · rw [attemptAmong_answers (scripted v.readings) (v.diary i) (v.met i) hconflicts]
    refine ⟨?_, rfl⟩
    -- a claim of no length takes no reading, any other takes one
    unfold acquireOn
    split <;> rfl

/-- As long as no attempt is the last, each spends one of those allowed. -/
theorem attemptsFrom_add {i : Nat} (h : ∀ j < i, ¬v.Settles j) (left : Nat) :
    v.outcome (left + i) = v.attemptsFrom left i := by
  induction i generalizing left with
  | zero => rfl
  | succ i ih =>
      have hrest : v.outcome (left + 1 + i) = v.attemptsFrom (left + 1) i :=
        ih (fun j hj => h j (Nat.lt_succ_of_lt hj)) (left + 1)
      rw [Nat.add_right_comm] at hrest
      exact hrest.trans (v.attemptsFrom_of_not_settles (h i (Nat.lt_succ_self i)) left)

/-! ## Waiting comes to an end -/

/-- The claim is settled by attempt `n`, the first one that may settle it. -/
structure SettledBy (n : Nat) : Prop where
  /-- Every attempt before found the key held, and time left. -/
  refused : ∀ i < n, Conflicts (v.attempted i).2 ∧ v.checked i < v.deadline
  /-- A claimant allowed fewer attempts than it needs has no answer yet. -/
  unsettled : ∀ attempts ≤ n, (v.outcome attempts).2.2 = none
  /-- Any other gets the answer of that attempt, and the table as the attempt left it. -/
  answered : ∀ attempts > n,
    (v.outcome attempts).2 = ((v.attempted n).1, some (v.attempted n).2)
  /-- It gives up only after a reading past its deadline. -/
  late : Conflicts (v.attempted n).2 → v.deadline ≤ v.checked n
  /-- Having given up, it leaves the table as others alone made it. -/
  traceless : Conflicts (v.attempted n).2 → ∀ attempts > n, (v.outcome attempts).2.1 = v.met n
  /-- A claim of no length is misuse at once. -/
  timeless : v.ttl = Span.zero → n = 0 ∧ (v.attempted n).2 = .error (.misuse .zeroLease)
  /-- It pauses once after each attempt before, and no pause is longer than the terms and
  the time left allow. -/
  pauses : ∀ attempts > n, (v.outcome attempts).1.pauses = (List.range n).map v.paused
  brief : ∀ attempts, ∀ p ∈ (v.outcome attempts).1.pauses,
    p.2 ≤ v.table.terms.retry ∧ p.2 ≤ v.deadline.since p.1

/-- No pause is longer than the retry span, or than the time that was left. -/
theorem brief_diary (n : Nat) : ∀ p ∈ (v.diary n).pauses,
    p.2 ≤ v.table.terms.retry ∧ p.2 ≤ v.deadline.since p.1 := by
  intro p hp
  obtain ⟨i, -, rfl⟩ := List.mem_map.mp hp
  exact ⟨Nat.min_le_left _ _, Nat.min_le_right _ _⟩

/-- The attempt that settles a claim, when no attempt before does. -/
theorem settledBy {n : Nat} (hn : v.Settles n) (hfirst : ∀ i < n, ¬v.Settles i) :
    v.SettledBy n := by
  -- a budget of more than `n` attempts reaches the settling one, a smaller budget ends before it
  have hlater : ∀ attempts > n, ∃ left, v.outcome attempts = v.attemptsFrom (left + 1) n := by
    intro attempts hmore
    obtain ⟨left, rfl⟩ := Nat.exists_eq_add_of_lt hmore
    refine ⟨left, ?_⟩
    rw [← v.attemptsFrom_add hfirst (left + 1)]
    congr 1
    omega
  have hsooner : ∀ attempts ≤ n, v.outcome attempts = v.attemptsFrom 0 attempts := by
    intro attempts hfew
    have h := v.attemptsFrom_add (fun j hj => hfirst j (Nat.lt_of_lt_of_le hj hfew)) 0
    rwa [Nat.zero_add] at h
  have hanswered : ∀ attempts > n,
      (v.outcome attempts).2 = ((v.attempted n).1, some (v.attempted n).2) := by
    intro attempts hmore
    obtain ⟨left, hrun⟩ := hlater attempts hmore
    rw [hrun]
    exact (v.attemptsFrom_of_settles hn left).2
  have hpauses : ∀ attempts > n, (v.outcome attempts).1.pauses = (v.diary n).pauses := by
    intro attempts hmore
    obtain ⟨left, hrun⟩ := hlater attempts hmore
    rw [hrun]
    exact (v.attemptsFrom_of_settles hn left).1
  constructor
  · intro i hi
    have hnot := hfirst i hi
    rw [Settles, not_or, not_not] at hnot
    exact ⟨hnot.1, Nat.lt_of_not_le hnot.2⟩
  · intro attempts hfew
    rw [hsooner attempts hfew]
    rfl
  · exact hanswered
  · intro hconflicts
    exact hn.resolve_left (not_not_intro hconflicts)
  · intro hconflicts attempts hmore
    rw [hanswered attempts hmore]
    exact (acquire_of_conflicts hconflicts).2
  · intro hz
    have hanswer : ∀ i, (v.attempted i).2 = .error (.misuse .zeroLease) := by
      intro i
      simp only [attempted, acquire, hz, if_pos (Span.isZero_iff.mpr rfl)]
    refine ⟨?_, hanswer n⟩
    -- the first attempt would have settled it
    rcases Nat.eq_zero_or_pos n with hzero | hpos
    · exact hzero
    · have hnot := hfirst 0 hpos
      rw [Settles, hanswer 0] at hnot
      refine absurd (Or.inl ?_) hnot
      rintro ⟨key, holder, ⟨⟩⟩
  · exact hpauses
  · intro attempts
    rcases Nat.lt_or_ge n attempts with hmore | hfew
    · rw [hpauses attempts hmore]
      exact v.brief_diary n
    · rw [hsooner attempts hfew]
      exact v.brief_diary attempts

/-- A clock that never goes back and reaches the deadline ends every wait, whatever others do
with the table meanwhile; with nobody else around the wait is that of `acquireWithin`. -/
theorem isPatient (hforward : ∀ i j, i ≤ j → v.readings i ≤ v.readings j)
    (hreaches : ∃ i, v.deadline ≤ v.readings i) :
    (∃ n, v.SettledBy n) ∧
      (v.company = (fun _ => []) → ∀ attempts, v.outcome attempts =
        acquireWithin (scripted v.readings) attempts {} v.table v.key v.holder v.ttl v.wait) := by
  classical
  obtain ⟨i, hi⟩ := hreaches
  have hends : ∃ n, v.Settles n := by
    refine ⟨i, Or.inr ?_⟩
    exact Nat.le_trans hi (hforward i (3 * i + 2) (by omega))
  constructor
  · exact ⟨Nat.find hends, v.settledBy (Nat.find_spec hends) fun _ => Nat.find_min hends⟩
  · intro halone attempts
    rw [outcome, halone]
    exact acquireAmong_empty _ _ _ _ _ _ _ _

/-- A claimant of a key whose holder renews its lease at the last moment. -/
def beset : Claimant where
  readings i := ⟨4 * i⟩
  company i := if i = 0 then [⟨⟨14⟩, .renew ⟨"db", ⟨9⟩, 1, ⟨0⟩, ⟨15⟩⟩ ⟨30⟩⟩] else []
  table := ((fresh ⟨⟨15⟩, ⟨5⟩⟩).grant ⟨0⟩ "db" ⟨9⟩ ⟨15⟩).1
  key := "db"
  holder := ⟨2⟩
  ttl := ⟨10⟩
  wait := ⟨20⟩

/-- A claimant besieged by a renewed lease pauses once and gives up when its time is over. -/
theorem isPatient_beset :
    (∃ n, beset.SettledBy n) ∧ (beset.outcome 1).2.2 = none ∧
      (beset.outcome 2).2.2 = some (.error (.leaseConflict "db" ⟨9⟩)) ∧
      (beset.outcome 2).1.pauses = [(⟨12⟩, ⟨5⟩)] := by
  have hpatient := isPatient beset (fun i j hij => Nat.mul_le_mul_left 4 hij) ⟨5, by decide⟩
  exact ⟨hpatient.1, rfl, rfl, rfl⟩

end Claimant

end LeaseTable

end Troupe
