import Mathlib.Data.List.Basic
import Troupe.Proofs.Mailbox.Run

/-!
# Backpressure with hysteresis

Backpressure sets in when the length reaches the high watermark and is lifted when the
length is back at the low one. As a request changes the length by one at most, the two
are reached exactly and by turns.

* `raise_crossing`, `lower_crossing` — the two requests that turn the flag;
* `swing` — one request crosses at most one watermark, the one that is due;
* `balanced_record` — the flag tells on which side of which watermark the length is;
* `record_isHysteretic` — events, totals and statuses follow the flag in every run.
-/

namespace Troupe

/-- The crossing that an effect reports. -/
def Effect.pressure? {ω : Type} : Effect ω → Option PressureEvent
  | .pressure event => some event
  | .wake _ => none

/-- The crossings among effects, in order. -/
def Effect.crossings {ω : Type} (effects : List (Effect ω)) : List PressureEvent :=
  effects.filterMap Effect.pressure?

theorem Effect.crossings_append_wakes {ω : Type} (event : Option PressureEvent) (w : Option ω) :
    Effect.crossings (Effect.pressures event ++ Effect.wakes w) = event.toList := by
  cases event <;> cases w <;> rfl

theorem Effect.pressure_notMem_wakes {ω : Type} (event : PressureEvent) (w : Option ω) :
    Effect.pressure event ∉ Effect.wakes w := by
  cases w <;> simp [Effect.wakes]

/-- The first `n` crossings when the watermarks are reached by turns, the high one first. -/
def Watermarks.alternation (marks : Watermarks) (n : Nat) : List PressureEvent :=
  (List.range n).map fun i => if i % 2 = 0 then .engaged marks.high else .cleared marks.low

theorem Watermarks.alternation_succ (marks : Watermarks) (n : Nat) :
    marks.alternation (n + 1) =
      marks.alternation n ++ [if n % 2 = 0 then .engaged marks.high else .cleared marks.low] := by
  simp [alternation, List.range_succ]

namespace Mailbox

variable {ω μ : Type}

/-! ## The two watermarks -/

theorem raise_crossing {m : Mailbox ω μ} {n : Nat} (hn : m.marks.high ≤ n)
    (he : m.isEngaged = false) :
    m.raise n =
      ({ m with isEngaged := true, totals := { m.totals with engaged := m.totals.engaged + 1 } },
        .engaged, some (.engaged n)) := by
  rw [raise, if_pos ⟨hn, he⟩]

theorem raise_quiet {m : Mailbox ω μ} {n : Nat} (h : n < m.marks.high ∨ m.isEngaged = true) :
    m.raise n = (m, if m.isEngaged then .backpressured else .accepted, none) := by
  have hnot : ¬ (m.marks.high ≤ n ∧ m.isEngaged = false) := by
    rintro ⟨hn, he⟩
    rcases h with hlt | htrue
    · omega
    · exact Bool.false_ne_true (he.symm.trans htrue)
  rw [raise, if_neg hnot]

theorem lower_crossing {m : Mailbox ω μ} {n : Nat} (hn : n ≤ m.marks.low)
    (he : m.isEngaged = true) :
    m.lower n =
      ({ m with isEngaged := false, totals := { m.totals with cleared := m.totals.cleared + 1 } },
        some (.cleared n)) := by
  rw [lower, if_pos ⟨hn, he⟩]

theorem lower_quiet {m : Mailbox ω μ} {n : Nat} (h : m.marks.low < n ∨ m.isEngaged = false) :
    m.lower n = (m, none) := by
  have hnot : ¬ (n ≤ m.marks.low ∧ m.isEngaged = true) := by
    rintro ⟨hn, he⟩
    rcases h with hlt | hfalse
    · omega
    · exact Bool.false_ne_true (hfalse.symm.trans he)
  rw [lower, if_neg hnot]

/-! ## One request -/

/-- Backpressure is engaged above the low watermark only, and disengaged below the high
one only. -/
structure Poised (m : Mailbox ω μ) : Prop where
  below : m.isEngaged = false → m.reserved < m.marks.high
  above : m.isEngaged = true → m.marks.low < m.reserved

/-- Under hysteresis the send that engages backpressure makes the length equal to the high
watermark. -/
theorem raise_takeIn_cases {m : Mailbox ω μ} (hp : m.Poised) (e : Envelope μ) :
    ((m.reserved + 1 < m.marks.high ∨ m.isEngaged = true) ∧
      (m.takeIn e).raise (m.reserved + 1) =
        (m.takeIn e, if m.isEngaged then .backpressured else .accepted, none)) ∨
    (m.isEngaged = false ∧ m.reserved + 1 = m.marks.high ∧
      (m.takeIn e).raise (m.reserved + 1) =
        ({ m.takeIn e with
            isEngaged := true
            totals := { (m.takeIn e).totals with engaged := m.totals.engaged + 1 } },
          .engaged, some (.engaged m.marks.high))) := by
  by_cases hquiet : m.reserved + 1 < m.marks.high ∨ m.isEngaged = true
  · exact Or.inl ⟨hquiet, raise_quiet (m := m.takeIn e) hquiet⟩
  · rw [not_or, Nat.not_lt, Bool.not_eq_true] at hquiet
    obtain ⟨hge, hflag⟩ := hquiet
    have hlt := hp.below hflag
    have hlen : m.reserved + 1 = m.marks.high := by omega
    refine Or.inr ⟨hflag, hlen, ?_⟩
    rw [← hlen]
    exact raise_crossing (m := m.takeIn e) hge hflag

/-- Under hysteresis the receive that clears backpressure makes the length equal to the low
watermark. -/
theorem lower_dispatch_cases {m : Mailbox ω μ} (hp : m.Poised) (rest : List (Envelope μ)) :
    ((m.marks.low < m.reserved - 1 ∨ m.isEngaged = false) ∧
      (m.dispatch rest).lower (m.reserved - 1) = (m.dispatch rest, none)) ∨
    (m.isEngaged = true ∧ m.reserved - 1 = m.marks.low ∧
      (m.dispatch rest).lower (m.reserved - 1) =
        ({ m.dispatch rest with
            isEngaged := false
            totals := { (m.dispatch rest).totals with cleared := m.totals.cleared + 1 } },
          some (.cleared m.marks.low))) := by
  by_cases hquiet : m.marks.low < m.reserved - 1 ∨ m.isEngaged = false
  · exact Or.inl ⟨hquiet, lower_quiet (m := m.dispatch rest) hquiet⟩
  · rw [not_or, Nat.not_lt, Bool.not_eq_false] at hquiet
    obtain ⟨hle, hflag⟩ := hquiet
    have hlt := hp.above hflag
    have hlen : m.reserved - 1 = m.marks.low := by omega
    refine Or.inr ⟨hflag, hlen, ?_⟩
    rw [← hlen]
    exact lower_crossing (m := m.dispatch rest) hle hflag

/-- What a request may do to the flag, the totals and whoever watches them: nothing, or
the crossing that is due. -/
inductive Swing (m m' : Mailbox ω μ) (events : List PressureEvent) : Prop where
  | still (hflag : m'.isEngaged = m.isEngaged) (hup : m'.totals.engaged = m.totals.engaged)
      (hdown : m'.totals.cleared = m.totals.cleared) (hevents : events = [])
  | up (hbefore : m.isEngaged = false) (hafter : m'.isEngaged = true)
      (hup : m'.totals.engaged = m.totals.engaged + 1)
      (hdown : m'.totals.cleared = m.totals.cleared)
      (hevents : events = [.engaged m.marks.high])
  | down (hbefore : m.isEngaged = true) (hafter : m'.isEngaged = false)
      (hup : m'.totals.engaged = m.totals.engaged)
      (hdown : m'.totals.cleared = m.totals.cleared + 1)
      (hevents : events = [.cleared m.marks.low])

theorem swing_dispatch {m : Mailbox ω μ} (hp : m.Poised) (rest : List (Envelope μ)) :
    Swing m ((m.dispatch rest).lower (m.reserved - 1)).1
      (Effect.crossings
        (Effect.pressures ((m.dispatch rest).lower (m.reserved - 1)).2 : List (Effect ω))) := by
  rcases lower_dispatch_cases hp rest with ⟨-, heq⟩ | ⟨hflag, -, heq⟩
  · rw [heq]
    exact .still rfl rfl rfl rfl
  · rw [heq]
    exact .down hflag rfl rfl rfl rfl

/-- One request crosses at most one watermark. -/
theorem swing {m : Mailbox ω μ} (hp : m.Poised) {request : Request ω μ}
    {o : Outcome ω (Mailbox ω μ) (Reply μ)} (h : Served m request o) :
    Swing m o.state (Effect.crossings o.effects) := by
  -- only a message let in or taken out moves the length, and only one that moves it can cross
  cases h with
  | closed e hc => exact .still rfl rfl rfl rfl
  | full e hc hfull => exact .still rfl rfl rfl rfl
  | admitted e hc hroom =>
      simp only [Effect.crossings_append_wakes]
      rcases raise_takeIn_cases hp e with ⟨-, heq⟩ | ⟨hflag, -, heq⟩
      · rw [heq]
        exact .still rfl rfl rfl rfl
      · rw [heq]
        exact .up hflag rfl rfl rfl rfl
  | nothing hq => exact .still rfl rfl rfl rfl
  | taken e rest hq => exact swing_dispatch hp rest
  | waiting w hq => exact .still rfl rfl rfl rfl
  | polled w e rest hq => exact swing_dispatch hp rest
  | shut => exact .still rfl rfl rfl (Effect.crossings_append_wakes none m.receiver)

/-- Taking a message out keeps the length on its side of the watermark. -/
theorem poised_dispatch {m : Mailbox ω μ} (hv : m.marks.Valid) (hp : m.Poised)
    (rest : List (Envelope μ)) : ((m.dispatch rest).lower (m.reserved - 1)).1.Poised := by
  have hgap : m.marks.low < m.marks.high := hv.1
  have hbelow := hp.below
  -- a receive that clears leaves the length at the low watermark, below the high one
  rcases lower_dispatch_cases hp rest with ⟨hquiet, heq⟩ | ⟨hflag, hlen, heq⟩
  · rw [heq]
    constructor
    · intro hflag
      have hlt := hbelow hflag
      show m.reserved - 1 < m.marks.high
      omega
    · intro hflag
      exact hquiet.resolve_right fun h => Bool.false_ne_true (h.symm.trans hflag)
  · rw [heq]
    constructor
    · intro _
      show m.reserved - 1 < m.marks.high
      omega
    · intro hflag
      exact absurd hflag Bool.false_ne_true

/-- One request keeps the length on its side of the watermark. -/
theorem Served.poised {m : Mailbox ω μ} (hv : m.marks.Valid) (hp : m.Poised)
    {request : Request ω μ} {o : Outcome ω (Mailbox ω μ) (Reply μ)} (h : Served m request o) :
    o.state.Poised := by
  have hgap : m.marks.low < m.marks.high := hv.1
  cases h with
  | closed e hc => exact hp
  | full e hc hfull => exact ⟨hp.below, hp.above⟩
  | admitted e hc hroom =>
      -- a send that engages leaves the length at the high watermark, above the low one
      rcases raise_takeIn_cases hp e with ⟨hquiet, heq⟩ | ⟨hflag, hlen, heq⟩
      · simp only [heq]
        constructor
        · intro hflag
          exact hquiet.resolve_right fun h => Bool.false_ne_true (hflag.symm.trans h)
        · intro hflag
          exact Nat.lt_succ_of_lt (hp.above hflag)
      · simp only [heq]
        constructor
        · intro hflag
          exact absurd hflag.symm Bool.false_ne_true
        · intro _
          show m.marks.low < m.reserved + 1
          omega
  | nothing hq => exact hp
  | taken e rest hq => exact poised_dispatch hv hp rest
  | waiting w hq => exact ⟨hp.below, hp.above⟩
  | polled w e rest hq => exact poised_dispatch hv hp rest
  | shut => exact ⟨hp.below, hp.above⟩

/-! ## Every run -/

/-- The crossings on record, in order. -/
def Record.crossings (r : Record ω μ) : List PressureEvent :=
  r.entries.flatMap fun x => Effect.crossings x.effects

/-- The flag is right, and the crossings on record are those that led to it. -/
structure Record.Balanced (marks : Watermarks) (r : Record ω μ) : Prop where
  settled : r.mailbox.Settled
  marks_eq : r.mailbox.marks = marks
  poised : r.mailbox.Poised
  crossings_eq : r.crossings =
    marks.alternation (r.mailbox.totals.engaged + r.mailbox.totals.cleared)
  balance : r.mailbox.totals.engaged =
    r.mailbox.totals.cleared + if r.mailbox.isEngaged then 1 else 0

theorem balanced_nil {marks : Watermarks} (hv : marks.Valid) :
    (⟨ofMarks marks, []⟩ : Record ω μ).Balanced marks := by
  have hpos : 0 < marks.high := Nat.zero_lt_of_lt hv.1
  exact ⟨settled_ofMarks marks, rfl, ⟨fun _ => hpos, fun h => absurd h Bool.false_ne_true⟩,
    rfl, rfl⟩

/-- The crossing that is due continues the alternation. -/
theorem Record.Balanced.append {marks : Watermarks} {r : Record ω μ} (h : r.Balanced marks)
    {x : Entry ω μ} {m : Mailbox ω μ} (hswing : Swing r.mailbox m (Effect.crossings x.effects))
    (hmarks : m.marks = r.mailbox.marks) (hm : m.Settled) (hp : m.Poised) :
    (⟨m, r.entries ++ [x]⟩ : Record ω μ).Balanced marks := by
  have hcrossings : (⟨m, r.entries ++ [x]⟩ : Record ω μ).crossings =
      r.crossings ++ Effect.crossings x.effects := by
    simp [Record.crossings]
  have hbalance := h.balance
  refine ⟨hm, hmarks.trans h.marks_eq, hp, ?_, ?_⟩
  · rw [hcrossings, h.crossings_eq]
    cases hswing with
    | still hflag hup hdown hevents => rw [hevents, hup, hdown, List.append_nil]
    | up hbefore hafter hup hdown hevents =>
        -- as many crossings of either kind so far: the next is upward
        have heven : (r.mailbox.totals.engaged + r.mailbox.totals.cleared) % 2 = 0 := by
          simp [hbefore] at hbalance
          omega
        rw [hevents, hup, hdown, Nat.add_right_comm, Watermarks.alternation_succ, if_pos heven,
          h.marks_eq]
    | down hbefore hafter hup hdown hevents =>
        -- one more upward than downward so far: the next is downward
        have hodd : ¬ (r.mailbox.totals.engaged + r.mailbox.totals.cleared) % 2 = 0 := by
          simp [hbefore] at hbalance
          omega
        rw [hevents, hup, hdown, ← Nat.add_assoc, Watermarks.alternation_succ, if_neg hodd,
          h.marks_eq]
  -- a crossing counts on one side and turns the flag to match
  · cases hswing with
    | still hflag hup hdown hevents => rw [hup, hdown, hflag, hbalance]
    | up hbefore hafter hup hdown hevents =>
        simp [hbefore, hafter, hup, hdown] at hbalance ⊢
        omega
    | down hbefore hafter hup hdown hevents =>
        simp [hbefore, hafter, hup, hdown] at hbalance ⊢
        omega

/-- Flag, counters and crossings agree whatever is asked for. -/
theorem balanced_record {marks : Watermarks} (hv : marks.Valid) (requests : List (Request ω μ)) :
    (record (ofMarks marks) requests).Balanced marks := by
  apply record_invariant (balanced_nil hv)
  intro r request h
  have hserved := served h.settled request
  have hv' : r.mailbox.marks.Valid := h.marks_eq ▸ hv
  exact h.append (swing h.poised hserved) hserved.marks (hserved.settled h.settled)
    (hserved.poised hv' h.poised)

/-! ## What senders and observers are told -/

/-- A send is refused without a word, accepted without a crossing, or crosses the high
watermark. -/
theorem enqueue_status_cases {m : Mailbox ω μ} (hm : m.Settled) (hp : m.Poised) (e : Envelope μ) :
    (∃ m' refusal, m.enqueue e = ⟨m', [], .error refusal⟩) ∨
      (∃ m', m.enqueue e = ⟨m', Effect.wakes m.receiver,
        .ok (if m.isEngaged then .backpressured else .accepted)⟩) ∨
      (m.isEngaged = false ∧ ∃ m', m.enqueue e = ⟨m',
        .pressure (.engaged m.marks.high) :: Effect.wakes m.receiver, .ok .engaged⟩) := by
  by_cases hc : m.isClosed = true
  · rw [enqueue_closed m e hc]
    exact Or.inl ⟨_, _, rfl⟩
  · rw [Bool.not_eq_true] at hc
    -- only an accepted message can make the length cross
    by_cases hroom : m.reserved < m.marks.capacity
    · rw [enqueue_room hm e hc hroom]
      rcases raise_takeIn_cases hp e with ⟨-, heq⟩ | ⟨hflag, -, heq⟩
      · rw [heq]
        exact Or.inr (Or.inl ⟨_, rfl⟩)
      · rw [heq]
        exact Or.inr (Or.inr ⟨hflag, _, rfl⟩)
    · rw [enqueue_full m e hc (Nat.not_lt.mp hroom)]
      exact Or.inl ⟨_, _, rfl⟩

/-- The mailbox of a record sets backpressure in and lifts it with hysteresis. -/
structure Record.IsHysteretic (marks : Watermarks) (r : Record ω μ) : Prop where
  below : r.mailbox.isEngaged = false → r.mailbox.length < marks.high
  above : r.mailbox.isEngaged = true → marks.low < r.mailbox.length
  crossings_eq : r.crossings =
    marks.alternation (r.mailbox.totals.engaged + r.mailbox.totals.cleared)
  balance : r.mailbox.totals.engaged =
    r.mailbox.totals.cleared + if r.mailbox.isEngaged then 1 else 0
  /-- The sender that is told of the crossing is the one whose message made it. -/
  engaged_iff : ∀ e, (r.mailbox.enqueue e).answer = .ok .engaged ↔
    ∃ n, .pressure (.engaged n) ∈ (r.mailbox.enqueue e).effects
  backpressured_iff : ∀ e, (r.mailbox.enqueue e).answer = .ok .backpressured ↔
    (∃ status, (r.mailbox.enqueue e).answer = .ok status) ∧ r.mailbox.isEngaged = true
  accepted_iff : ∀ e, (r.mailbox.enqueue e).answer = .ok .accepted ↔
    (∃ status, (r.mailbox.enqueue e).answer = .ok status) ∧ r.mailbox.isEngaged = false ∧
      ¬ ∃ n, .pressure (.engaged n) ∈ (r.mailbox.enqueue e).effects
  refused_quiet : ∀ e refusal, (r.mailbox.enqueue e).answer = .error refusal →
    (r.mailbox.enqueue e).effects = []
  empty_quiet : r.mailbox.dequeue.answer = none → r.mailbox.dequeue.effects = []

/-- A mailbox of a valid sizing, whatever it is asked for by one party after the other,
has hysteresis between its watermarks. -/
theorem record_isHysteretic {marks : Watermarks} {m : Mailbox ω μ} (hopen : open? marks = .ok m)
    (requests : List (Request ω μ)) : (record m requests).IsHysteretic marks := by
  obtain ⟨hv, rfl⟩ := (open?_eq_ok_iff marks m).mp hopen
  have h := balanced_record (ω := ω) (μ := μ) hv requests
  generalize record (ofMarks marks) requests = r at h ⊢
  obtain ⟨m, entries⟩ := r
  have hm : m.Settled := h.settled
  have hp : m.Poised := h.poised
  have hquiet := Effect.pressure_notMem_wakes (ω := ω)
  obtain rfl : m.marks = marks := h.marks_eq
  refine ⟨hp.below, hp.above, h.crossings_eq, h.balance, ?_, ?_, ?_, ?_, ?_⟩
  · intro e
    -- the three answers of a send settle each of the equivalences
    rcases enqueue_status_cases hm hp e with ⟨_, _, heq⟩ | ⟨_, heq⟩ | ⟨hflag, _, heq⟩
    · simp [heq]
    · by_cases hflag : m.isEngaged = true <;> simp [heq, hflag, hquiet]
    · simp [heq]
  · intro e
    rcases enqueue_status_cases hm hp e with ⟨_, _, heq⟩ | ⟨_, heq⟩ | ⟨hflag, _, heq⟩
    · simp [heq]
    · by_cases hflag : m.isEngaged = true <;> simp [heq, hflag]
    · simp [heq, hflag]
  · intro e
    rcases enqueue_status_cases hm hp e with ⟨_, _, heq⟩ | ⟨_, heq⟩ | ⟨hflag, _, heq⟩
    · simp [heq]
    · by_cases hflag : m.isEngaged = true <;> simp [heq, hflag, hquiet]
    · simp [heq]
  · intro e refusal href
    rcases enqueue_status_cases hm hp e with ⟨_, _, heq⟩ | ⟨_, heq⟩ | ⟨hflag, _, heq⟩
    · rw [heq]
    · rw [heq] at href
      exact nomatch href
    · rw [heq] at href
      exact nomatch href
  -- an empty mailbox is not asked to lower anything
  · intro hnone
    rw [dequeue_answer, List.head?_eq_none_iff] at hnone
    rw [dequeue_nil hnone]

/-- Watermarks next to each other, at the very ends: each crossing is followed by the other. -/
theorem record_isHysteretic_adjacent :
    open? ⟨1, 1, 0⟩ = .ok (ofMarks ⟨1, 1, 0⟩ : Mailbox Unit Nat) ∧
      (record (ofMarks ⟨1, 1, 0⟩ : Mailbox Unit Nat)
        [.enqueue ⟨7, .isolated, none, 0⟩, .enqueue ⟨8, .isolated, none, 0⟩, .dequeue, .dequeue,
          .enqueue ⟨9, .isolated, none, 0⟩, .close, .poll ()]).IsHysteretic ⟨1, 1, 0⟩ :=
  ⟨rfl, record_isHysteretic rfl _⟩

end Mailbox

end Troupe
