import Troupe.Proofs.Mailbox.Hysteresis
import Troupe.Proofs.Mailbox.Senders

/-!
# Backpressure at rest

A send that makes the length reach the high watermark engages backpressure some steps later,
and a receive that brings the length down to the low watermark clears it some steps later. In
between the length may cross the other watermark, and the one that crossed it may speak first:
then the last word is about a crossing that is long undone, and nobody corrects it.

A gauge watches traffic and keeps two notes: which watermark was crossed last, and whether the
last call that had a word on backpressure spoke for the other one.

* `Told.next` — the flag is as the gauge says, unless the call that crossed last has yet to speak;
* `poised_iff_not_outdated` — at rest backpressure is right exactly if the last word was not
  outdated, or the length is between the watermarks;
* `engaged_while_empty` — it can be engaged for good on an empty mailbox, and idle on a full one.
-/

namespace Troupe

namespace Mailbox

variable {ω μ : Type}

open Header.Traffic (replace mem_replace_some mem_replace_of_ne)

/-! ## Crossing and speaking -/

namespace SendCall

/-- The next step takes a place that makes the length reach the high watermark. -/
def crosses (m : Mailbox ω μ) : SendCall μ → Bool
  | reserving _ => m.reserved < m.marks.capacity ∧ m.marks.high ≤ m.reserved + 1
  | _ => false

/-- The send made the length reach the high watermark and has not spoken yet. -/
def isDue (marks : Watermarks) : SendCall μ → Bool
  | stamping _ n | pushing _ n | counting _ n | engaging _ n => marks.high ≤ n
  | _ => false

/-- The next step engages backpressure, if that has not been done. -/
def speaks (marks : Watermarks) : SendCall μ → Bool
  | engaging _ n => marks.high ≤ n
  | _ => false

end SendCall

namespace ReceiveCall

/-- The next step gives a place back, which brings the length down to the low watermark. -/
def crosses (m : Mailbox ω μ) : ReceiveCall ω μ → Bool
  | releasing _ _ => m.reserved - 1 ≤ m.marks.low
  | _ => false

/-- The receive brought the length down to the low watermark and has not spoken yet. -/
def isDue (marks : Watermarks) : ReceiveCall ω μ → Bool
  | counting _ _ n | clearing _ _ n => n ≤ marks.low
  | _ => false

/-- The next step clears backpressure, if that has not been done. -/
def speaks (marks : Watermarks) : ReceiveCall ω μ → Bool
  | clearing _ _ n => n ≤ marks.low
  | _ => false

end ReceiveCall

/-- What a step of a send does to length and flag: it speaks, or crosses, or neither. -/
structure SendCall.Swing (m : Mailbox ω μ) (call : SendCall μ)
    (o : Outcome ω (Mailbox ω μ) (SendCall μ ⊕ Return μ)) : Prop where
  isEngaged : o.state.isEngaged = (m.isEngaged || call.speaks m.marks)
  reserved : o.state.reserved = m.reserved ∨ o.state.reserved = m.reserved + 1 ∧
    (m.reserved + 1 < m.marks.high ∨ call.crosses m = true)
  crossed : call.crosses m = true → ∃ after, o.answer = .inl after ∧ after.isDue m.marks = true
  due : call.isDue m.marks = true → call.speaks m.marks = false →
    ∃ after, o.answer = .inl after ∧ after.isDue m.marks = true
  crosses_high : call.crosses m = true → m.marks.high ≤ o.state.reserved
  silent : call.crosses m = true → call.speaks m.marks = false

/-- A step of a send, of which the slot is there to be pushed into, swings length and flag as told.
-/
theorem SendCall.step_swing {m : Mailbox ω μ} {call : SendCall μ}
    (hslot : ∀ e n, call = .pushing e n → m.queue.length < m.marks.capacity)
    (hkept : ∀ e, call ≠ .unreserving e) : Swing m call (call.step m) := by
  cases call with
  | reserving e =>
      by_cases hroom : m.reserved < m.marks.capacity
      · by_cases hhigh : m.marks.high ≤ m.reserved + 1
        · constructor <;> simp [step, reserve?, hroom, hhigh, speaks, crosses, isDue]
        · constructor <;> simp [step, reserve?, hroom, hhigh, speaks, crosses, isDue]
          case reserved => omega
      · constructor <;> simp [step, reserve?, hroom, speaks, crosses, isDue]
  | pushing e n =>
      have hroom := hslot e n rfl
      constructor <;> simp [step, push?, hroom, speaks, crosses, isDue]
  | engaging e n =>
      by_cases hhigh : m.marks.high ≤ n
      -- engaging twice is the same as engaging once
      · cases hflag : m.isEngaged with
        | true => constructor <;> simp [step, hhigh, hflag, speaks, crosses, isDue]
        | false => constructor <;> simp [step, raise, hhigh, hflag, speaks, crosses, isDue]
      · constructor <;> simp [step, hhigh, speaks, crosses, isDue]
  | unreserving e => exact absurd rfl (hkept e)
  -- no other step looks at the watermark
  | checking e | stamping e n | rejecting e | counting e n | looking e | waking e status =>
      constructor <;> simp [step, stamp, reject, accept, wake, speaks, crosses, isDue]

/-- What a step of a receive does to length and flag. -/
structure ReceiveCall.Swing (m : Mailbox ω μ) (call : ReceiveCall ω μ)
    (o : Outcome ω (Mailbox ω μ) (ReceiveCall ω μ ⊕ Return μ)) : Prop where
  isEngaged : o.state.isEngaged = (m.isEngaged && !call.speaks m.marks)
  reserved : o.state.reserved = m.reserved ∨ o.state.reserved = m.reserved - 1 ∧
    (m.marks.low < m.reserved - 1 ∨ call.crosses m = true)
  crossed : call.crosses m = true → ∃ after, o.answer = .inl after ∧ after.isDue m.marks = true
  due : call.isDue m.marks = true → call.speaks m.marks = false →
    ∃ after, o.answer = .inl after ∧ after.isDue m.marks = true
  crosses_low : call.crosses m = true → o.state.reserved ≤ m.marks.low
  silent : call.crosses m = true → call.speaks m.marks = false

/-- A step of a receive swings length and flag as told. -/
theorem ReceiveCall.step_swing (m : Mailbox ω μ) (call : ReceiveCall ω μ) :
    Swing m call (call.step m) := by
  cases call with
  | popping look =>
      cases hqueue : m.queue with
      | nil => constructor <;> simp [step, pop?, hqueue, speaks, crosses, isDue]
      | cons e rest => constructor <;> simp [step, pop?, hqueue, speaks, crosses, isDue]
  | releasing look e =>
      by_cases hlow : m.reserved - 1 ≤ m.marks.low
      · constructor <;> simp [step, release, hlow, speaks, crosses, isDue]
      · constructor <;> simp [step, release, hlow, speaks, crosses, isDue]
        case reserved => omega
  | clearing look e n =>
      by_cases hlow : n ≤ m.marks.low
      · cases hflag : m.isEngaged with
        | true => constructor <;> simp [step, lower, hlow, hflag, speaks, crosses, isDue]
        | false => constructor <;> simp [step, lower, hlow, hflag, speaks, crosses, isDue]
      · constructor <;> simp [step, lower, hlow, speaks, crosses, isDue]
  -- no other step looks at the watermark
  | counting look e n | registering w | seeking | measuring =>
      constructor <;> simp [step, deliver, register, speaks, crosses, isDue]

/-! ## The gauge -/

/-- Traffic with two notes on backpressure. -/
structure Gauge (ω μ : Type) where
  traffic : Traffic ω μ
  /-- The watermark that was crossed last is the high one. -/
  isHigh : Bool
  /-- The last call that had a word on backpressure spoke for the other watermark. -/
  isOutdated : Bool

namespace Gauge

open Traffic (Action)

/-- A new mailbox: its length is low, and nobody has spoken. -/
def start (marks : Watermarks) : Gauge ω μ := ⟨.start marks, false, false⟩

def next (g : Gauge ω μ) : Action ω μ → Gauge ω μ
  | .send index =>
    match g.traffic.sends[index]? with
    | none => g
    | some call =>
      { traffic := g.traffic.next (.send index)
        isHigh := g.isHigh || call.crosses g.traffic.mailbox
        isOutdated := if call.speaks g.traffic.mailbox.marks then !g.isHigh else g.isOutdated }
  | .receive =>
    match g.traffic.receiver with
    | none => g
    | some call =>
      { traffic := g.traffic.next .receive
        isHigh := g.isHigh && !call.crosses g.traffic.mailbox
        isOutdated := if call.speaks g.traffic.mailbox.marks then g.isHigh else g.isOutdated }
  | action => { g with traffic := g.traffic.next action }

/-- What comes of actions one after another. -/
def run (g : Gauge ω μ) (actions : List (Action ω μ)) : Gauge ω μ := actions.foldl next g

/-- A gauge only watches. -/
theorem traffic_next (g : Gauge ω μ) (action : Action ω μ) :
    (g.next action).traffic = g.traffic.next action := by
  cases action with
  | send index =>
      simp only [next]
      split
      · next hcall => rw [Traffic.next_send_none hcall]
      · rfl
  | receive =>
      simp only [next]
      split
      · next hcall => rw [Traffic.next_receive_none hcall]
      · rfl
  | _ => rfl

theorem traffic_run (g : Gauge ω μ) (actions : List (Action ω μ)) :
    (g.run actions).traffic = g.traffic.run actions := by
  induction actions generalizing g with
  | nil => rfl
  | cons action rest ih => exact (ih (g.next action)).trans (by rw [traffic_next]; rfl)

/-- Some call that made the last crossing, or one like it, has yet to speak. -/
def IsPending (g : Gauge ω μ) : Prop :=
  (g.isHigh = true ∧ ∃ call ∈ g.traffic.sends, call.isDue g.traffic.mailbox.marks = true) ∨
    (g.isHigh = false ∧ ∃ call, g.traffic.receiver = some call ∧
      call.isDue g.traffic.mailbox.marks = true)

/-- The gauge tells where the length is, and how the flag came to be what it is. -/
structure Told (g : Gauge ω μ) : Prop where
  above : g.isHigh = true → g.traffic.mailbox.marks.low < g.traffic.mailbox.reserved
  below : g.isHigh = false → g.traffic.mailbox.reserved < g.traffic.mailbox.marks.high
  flag : ¬ g.IsPending → g.traffic.mailbox.isEngaged = (g.isHigh != g.isOutdated)

/-- A new mailbox is low and idle. -/
theorem told_start {marks : Watermarks} (hmarks : marks.Valid) :
    (start marks : Gauge ω μ).Told := by
  constructor
  · intro hhigh
    exact nomatch hhigh
  · intro _
    exact Nat.lt_of_le_of_lt (Nat.zero_le _) hmarks.1
  · intro _
    rfl

variable {g : Gauge ω μ}

theorem next_send {index : Nat} {call : SendCall μ} (hcall : g.traffic.sends[index]? = some call) :
    g.next (.send index) =
      { traffic := g.traffic.next (.send index)
        isHigh := g.isHigh || call.crosses g.traffic.mailbox
        isOutdated :=
          if call.speaks g.traffic.mailbox.marks then !g.isHigh else g.isOutdated } := by
  simp only [next, hcall]

theorem next_receive {call : ReceiveCall ω μ} (hcall : g.traffic.receiver = some call) :
    g.next .receive =
      { traffic := g.traffic.next .receive
        isHigh := g.isHigh && !call.crosses g.traffic.mailbox
        isOutdated := if call.speaks g.traffic.mailbox.marks then g.isHigh else g.isOutdated } := by
  simp only [next, hcall]

/-- A send that does not speak leaves every call that has yet to speak to do so. -/
theorem due_send {index : Nat} {call other : SendCall μ} {marks : Watermarks}
    (hcall : g.traffic.sends[index]? = some call) (hother : other ∈ g.traffic.sends)
    (hdue : other.isDue marks = true)
    (hafter : call.isDue marks = true → ∃ after,
      (call.step g.traffic.mailbox).answer = .inl after ∧ after.isDue marks = true) :
    ∃ later ∈ (g.traffic.next (.send index)).sends, later.isDue marks = true := by
  rw [Traffic.next_send hcall]
  by_cases hsame : other.isDue marks = true ∧ other ≠ call
  · exact ⟨other, mem_replace_of_ne hcall hother hsame.2 _, hdue⟩
  · -- the call itself has yet to speak, and goes on
    have heq : other = call := by
      by_contra hne
      exact hsame ⟨hdue, hne⟩
    obtain ⟨after, hanswer, hlater⟩ := hafter (heq ▸ hdue)
    refine ⟨after, ?_, hlater⟩
    rw [hanswer]
    exact mem_replace_some ..

theorem Told.send (hg : g.Told) (hkept : g.traffic.Kept) (hroomy : g.traffic.Roomy)
    (hmarks : g.traffic.mailbox.marks.Valid) (index : Nat) : (g.next (.send index)).Told := by
  cases hcall : g.traffic.sends[index]? with
  | none =>
      have hnone : g.next (.send index) = g := by simp only [next, hcall]
      rwa [hnone]
  | some call =>
      have hmem := List.mem_of_getElem? hcall
      have hswing : call.Swing g.traffic.mailbox (call.step g.traffic.mailbox) := by
        apply SendCall.step_swing
        · rintro e n rfl
          exact hkept.slot hroomy hmem
        · rintro e rfl
          exact hroomy.kept e hmem
      have hmove := call.step_move g.traffic.mailbox
      have hmailbox : (g.traffic.next (.send index)).mailbox =
          (call.step g.traffic.mailbox).state := by rw [Traffic.next_send hcall]
      obtain ⟨hlow, -⟩ := hmarks
      rw [next_send hcall]
      -- above and below: a send only adds to the length, and crossing turns the gauge to high
      constructor
      · simp only [hmailbox, hmove.marks, Bool.or_eq_true]
        rintro (hhigh | hcross)
        · have habove := hg.above hhigh
          rcases hswing.reserved with hsame | ⟨hmore, -⟩
          · omega
          · omega
        · have hreached := hswing.crosses_high hcross
          omega
      · simp only [hmailbox, hmove.marks, Bool.or_eq_false_iff]
        rintro ⟨hnot, hcross⟩
        have hbelow := hg.below hnot
        rcases hswing.reserved with hsame | ⟨hmore, hless | hcrossed⟩
        · omega
        · omega
        · exact nomatch hcross.symm.trans hcrossed
      -- the flag: nobody is pending after the step
      · intro hnot
        simp only [IsPending, hmailbox, hmove.marks] at hnot ⊢
        rw [hswing.isEngaged]
        cases hcross : call.crosses g.traffic.mailbox with
        | true =>
            -- who crosses has yet to speak
            obtain ⟨after, hanswer, hdue⟩ := hswing.crossed hcross
            refine absurd (Or.inl ⟨by rw [hcross, Bool.or_true], after, ?_, hdue⟩) hnot
            rw [Traffic.next_send hcall, hanswer]
            exact mem_replace_some ..
        | false =>
            rw [hcross, Bool.or_false] at hnot
            cases hspeaks : call.speaks g.traffic.mailbox.marks with
            | true => simp
            | false =>
                -- who was pending before would still be, so nobody was
                have hflag : ¬ g.IsPending := by
                  rintro (⟨hhigh, other, hother, hdue⟩ | ⟨hlow, hreceiver⟩)
                  · have hlater := due_send hcall hother hdue fun h => hswing.due h hspeaks
                    exact hnot (.inl ⟨hhigh, hlater⟩)
                  · refine hnot (.inr ⟨hlow, ?_⟩)
                    rwa [Traffic.next_send hcall]
                simpa using hg.flag hflag

theorem Told.receive (hg : g.Told) (hmarks : g.traffic.mailbox.marks.Valid) :
    (g.next .receive).Told := by
  cases hcall : g.traffic.receiver with
  | none =>
      have hnone : g.next .receive = g := by simp only [next, hcall]
      rwa [hnone]
  | some call =>
      have hswing := call.step_swing g.traffic.mailbox
      have hmove := call.step_move g.traffic.mailbox
      have hmailbox : (g.traffic.next .receive).mailbox =
          (call.step g.traffic.mailbox).state := by rw [Traffic.next_receive hcall]
      obtain ⟨hlow, -⟩ := hmarks
      rw [next_receive hcall]
      -- above and below: a receive only takes from the length, and crossing turns the gauge to low
      constructor
      · simp only [hmailbox, hmove.marks, Bool.and_eq_true, Bool.not_eq_true']
        rintro ⟨hhigh, hcross⟩
        have habove := hg.above hhigh
        rcases hswing.reserved with hsame | ⟨hless, hmore | hcrossed⟩
        · omega
        · omega
        · exact nomatch hcross.symm.trans hcrossed
      · simp only [hmailbox, hmove.marks, Bool.and_eq_false_iff, Bool.not_eq_false']
        rintro (hnot | hcross)
        · have hbelow := hg.below hnot
          rcases hswing.reserved with hsame | ⟨hless, -⟩
          · omega
          · omega
        · have hreached := hswing.crosses_low hcross
          omega
      · intro hnot
        simp only [IsPending, hmailbox, hmove.marks] at hnot ⊢
        rw [hswing.isEngaged]
        cases hcross : call.crosses g.traffic.mailbox with
        | true =>
            obtain ⟨after, hanswer, hdue⟩ := hswing.crossed hcross
            refine absurd (Or.inr ⟨by rw [hcross, Bool.not_true, Bool.and_false], after, ?_, hdue⟩)
              hnot
            rw [Traffic.next_receive hcall, hanswer]
            rfl
        | false =>
            rw [hcross, Bool.not_false, Bool.and_true] at hnot
            cases hspeaks : call.speaks g.traffic.mailbox.marks with
            | true => simp
            | false =>
                have hflag : ¬ g.IsPending := by
                  rintro (⟨hhigh, hsends⟩ | ⟨hlow, other, hother, hdue⟩)
                  · refine hnot (.inl ⟨hhigh, ?_⟩)
                    rwa [Traffic.next_receive hcall]
                  · -- the receiver is in the middle of one call only
                    obtain rfl : call = other := Option.some.inj (hcall.symm.trans hother)
                    obtain ⟨after, hanswer, hlater⟩ := hswing.due hdue hspeaks
                    refine hnot (.inr ⟨hlow, after, ?_, hlater⟩)
                    rw [Traffic.next_receive hcall, hanswer]
                    rfl
                simpa using hg.flag hflag

/-- A call that begins or a step of a request to close moves neither length nor flag, and ends
no call that has yet to speak. -/
theorem Told.of_same {s : Traffic ω μ} (hg : g.Told)
    (hmarks : s.mailbox.marks = g.traffic.mailbox.marks)
    (hreserved : s.mailbox.reserved = g.traffic.mailbox.reserved)
    (hflag : s.mailbox.isEngaged = g.traffic.mailbox.isEngaged)
    (hsends : ∀ call ∈ g.traffic.sends, call ∈ s.sends)
    (hreceiver : ∀ call, g.traffic.receiver = some call → s.receiver = some call) :
    ({ g with traffic := s } : Gauge ω μ).Told := by
  constructor
  · rw [hmarks, hreserved]
    exact hg.above
  · rw [hmarks, hreserved]
    exact hg.below
  · intro hnot
    rw [hflag]
    apply hg.flag
    rintro (⟨hhigh, call, hcall, hdue⟩ | ⟨hlow, call, hcall, hdue⟩)
    · exact hnot (.inl ⟨hhigh, call, hsends call hcall, hmarks ▸ hdue⟩)
    · exact hnot (.inr ⟨hlow, call, hreceiver call hcall, hmarks ▸ hdue⟩)

theorem Told.begin (hg : g.Told) (look : Look ω) :
    ({ g with traffic := g.traffic.begin look } : Gauge ω μ).Told := by
  unfold Traffic.begin
  split
  · next hcall =>
      exact hg.of_same rfl rfl rfl (fun _ h => h) fun call h => nomatch hcall.symm.trans h
  · exact hg

theorem Told.next (hg : g.Told) (hkept : g.traffic.Kept) (hroomy : g.traffic.Roomy)
    (hmarks : g.traffic.mailbox.marks.Valid) (action : Action ω μ) : (g.next action).Told := by
  cases action with
  | send index => exact hg.send hkept hroomy hmarks index
  | receive => exact hg.receive hmarks
  | close index =>
      show ({ g with traffic := g.traffic.next (.close index) } : Gauge ω μ).Told
      -- flag and watermarks are no business of a request to close
      cases hcall : g.traffic.closes[index]? with
      | none => rwa [Traffic.next_close_none hcall]
      | some call =>
          rw [Traffic.next_close hcall]
          cases call with
          | flagging | waking => exact hg.of_same rfl rfl rfl (fun _ h => h) fun _ h => h
  | callSend e =>
      exact hg.of_same rfl rfl rfl (fun _ h => List.mem_append_left _ h) fun _ h => h
  | callClose => exact hg.of_same rfl rfl rfl (fun _ h => h) fun _ h => h
  | callDequeue => exact hg.begin .single
  | callPoll w => exact hg.begin (.first w)

/-- After every run the gauge tells what it has to. -/
theorem told_run {marks : Watermarks} (hmarks : marks.Valid) (actions : List (Action ω μ)) :
    ((start marks).run actions).Told := by
  -- by induction on the actions, with what a step of the gauge asks of the traffic carried along
  suffices h : ∀ g : Gauge ω μ, g.Told → g.traffic.Kept → g.traffic.Roomy →
      g.traffic.mailbox.marks.Valid → (g.run actions).Told from
    h _ (told_start hmarks) (Traffic.kept_start marks) (Traffic.roomy_start marks) hmarks
  induction actions with
  | nil => exact fun g hg _ _ _ => hg
  | cons action rest ih =>
      intro g hg hkept hroomy hvalid
      have htraffic := traffic_next g action
      apply ih (g.next action)
      · exact hg.next hkept hroomy hvalid action
      · exact htraffic ▸ hkept.next action
      · exact htraffic ▸ hroomy.next hkept action
      · rwa [htraffic, Traffic.marks_next]

end Gauge

/-! ## At rest -/

namespace Traffic

/-- No send and no receive is in progress. -/
def AtRest (s : Traffic ω μ) : Prop := s.sends = [] ∧ s.receiver = none

/-- At rest all calls that crossed a watermark have spoken. -/
theorem AtRest.not_isPending {g : Gauge ω μ} (hrest : g.traffic.AtRest) : ¬ g.IsPending := by
  rintro (⟨-, call, hcall, -⟩ | ⟨-, call, hcall, -⟩)
  · rw [hrest.1] at hcall
    exact nomatch hcall
  · exact nomatch hrest.2.symm.trans hcall

/-- Whatever sends and receives are made and however their steps mix: when all of them have
returned, an engaged mailbox is above its low watermark and an idle one below its high
watermark, exactly if the last call that had a word on backpressure did not speak for a
crossing that was undone by then, or the length is strictly between the watermarks. -/
theorem poised_iff_not_outdated {marks : Watermarks} (hmarks : marks.Valid)
    (actions : List (Action ω μ)) (hrest : ((start marks).run actions).AtRest) :
    let s := (start marks).run actions
    let g := (Gauge.start marks).run actions
    g.traffic = s ∧ (s.mailbox.Poised ↔
      g.isOutdated = false ∨ marks.low < s.mailbox.length ∧ s.mailbox.length < marks.high) := by
  intro s g
  have hsame : g.traffic = s := Gauge.traffic_run _ actions
  have hsizing : s.mailbox.marks = marks := marks_run marks actions
  have htold : g.Told := Gauge.told_run hmarks actions
  -- nobody is in progress, so nobody is pending and the flag is what the gauge says
  have hflag := htold.flag (AtRest.not_isPending (hsame ▸ hrest))
  have habove := htold.above
  have hbelow := htold.below
  rw [hsame, hsizing] at habove hbelow
  rw [hsame] at hflag
  refine ⟨hsame, ?_, ?_⟩
  · intro hpoised
    -- an outdated word makes the flag the opposite of what the last crossing asks for
    cases hlate : g.isOutdated with
    | false => exact .inl rfl
    | true =>
        right
        have hengaged := hpoised.above
        have hidle := hpoised.below
        rw [hsizing] at hengaged hidle
        rw [hflag, hlate] at hengaged hidle
        cases hhigh : g.isHigh with
        | true =>
            rw [hhigh] at hidle
            exact ⟨habove hhigh, hidle rfl⟩
        | false =>
            rw [hhigh] at hengaged
            exact ⟨hengaged rfl, hbelow hhigh⟩
  -- a timely word puts the flag on the side of the last crossing
  · rintro (htimely | ⟨hlow, hhigh⟩)
    · rw [htimely, Bool.bne_false] at hflag
      constructor
      · rw [hsizing, hflag]
        exact hbelow
      · rw [hsizing, hflag]
        exact habove
    · constructor
      · intro _
        rw [hsizing]
        exact hhigh
      · intro _
        rw [hsizing]
        exact hlow

/-- The receiver takes a message out while the send that reached the high watermark has not
engaged backpressure yet; that send speaks last, and the length is still above the low one. -/
theorem poised_after_overlap :
    let e : Envelope Unit := ⟨(), .isolated, none, 0⟩
    let actions : List (Action Unit Unit) := .callSend e :: List.replicate 8 (.send 0) ++
      .callSend e :: List.replicate 5 (.send 0) ++ .callDequeue :: List.replicate 4 .receive ++
      [.send 0, .send 0]
    let s := (start ⟨2, 2, 0⟩).run actions
    (⟨2, 2, 0⟩ : Watermarks).Valid ∧ s.AtRest ∧ s.mailbox.isEngaged = true ∧
      s.mailbox.Poised := by
  intro e actions s
  have hvalid : (⟨2, 2, 0⟩ : Watermarks).Valid := by decide
  have hrest : s.AtRest := by
    unfold AtRest
    subst s actions e
    cbv
  have htimely : ((Gauge.start ⟨2, 2, 0⟩).run actions).isOutdated = false := by
    subst s actions e
    cbv
  have hengaged : s.mailbox.isEngaged = true := by
    subst s actions e
    cbv
  exact ⟨hvalid, hrest, hengaged,
    (poised_iff_not_outdated hvalid actions hrest).2.mpr (.inl htimely)⟩

/-- A receiver that asks an empty mailbox over and over gets nothing, and changes nothing. -/
theorem run_ask_empty (s : Traffic ω μ) (hreceiver : s.receiver = none)
    (hempty : s.mailbox.queue = []) (n : Nat) :
    s.run (List.replicate n [Action.callDequeue, .receive]).flatten =
      { s with history := s.history ++ List.replicate n (.taken none) } := by
  induction n generalizing s with
  | zero => simp [run]
  | succ n ih =>
      obtain ⟨m, sends, receiver, closes, effects, history⟩ := s
      obtain rfl : receiver = none := hreceiver
      have hempty : m.queue = [] := hempty
      have honce : (((⟨m, sends, none, closes, effects, history⟩ : Traffic ω μ).next
          .callDequeue).next .receive) =
            ⟨m, sends, none, closes, effects, history ++ [.taken none]⟩ := by
        simp [next, begin, ReceiveCall.step, pop?, hempty, Look.missed]
      have hrest := ih ⟨m, sends, none, closes, effects, history ++ [.taken none]⟩ rfl hempty
      rw [List.replicate_succ, List.flatten_cons]
      show Traffic.run (((⟨m, sends, none, closes, effects, history⟩ : Traffic ω μ).next
        .callDequeue).next .receive) (List.replicate n [Action.callDequeue, .receive]).flatten = _
      rw [honce, hrest]
      simp [List.replicate_succ]

/-- A send reaches the high watermark, the receiver empties the mailbox, and only then does the
send engage backpressure: all calls have returned, the mailbox is empty and engaged, and no
receive will ever clear it. The other way round, a receive reaches the low watermark, two sends
fill the mailbox, and then the receive clears backpressure: the mailbox is full and idle. -/
theorem engaged_while_empty :
    let e : Envelope Unit := ⟨(), .isolated, none, 0⟩
    let sending (steps : Nat) : List (Action Unit Unit) :=
      .callSend e :: List.replicate steps (.send 0)
    let receiving (steps : Nat) : List (Action Unit Unit) :=
      .callDequeue :: List.replicate steps .receive
    let s := (start ⟨2, 2, 0⟩).run
      (sending 8 ++ sending 5 ++ receiving 4 ++ receiving 4 ++ [.send 0, .send 0])
    let s' := (start ⟨2, 2, 0⟩).run
      (sending 8 ++ sending 7 ++ receiving 4 ++ receiving 3 ++ sending 8 ++ sending 8 ++ [.receive])
    (s.AtRest ∧ s.mailbox.isEngaged = true ∧ s.mailbox.length = 0 ∧ ¬ s.mailbox.Poised ∧
      s.effects = [.pressure (.engaged 2)] ∧
      ∀ n, (s.run (List.replicate n [Action.callDequeue, .receive]).flatten).mailbox = s.mailbox ∧
        (s.run (List.replicate n [Action.callDequeue, .receive]).flatten).effects = s.effects) ∧
    s'.AtRest ∧ s'.mailbox.isEngaged = false ∧ s'.mailbox.length = 2 ∧ ¬ s'.mailbox.Poised := by
  intro e sending receiving s s'
  have hs : s.AtRest ∧ s.mailbox.isEngaged = true ∧ s.mailbox.length = 0 ∧
      s.mailbox.queue = [] ∧ s.effects = [.pressure (.engaged 2)] := by
    unfold AtRest
    subst s sending receiving e
    cbv
  have hs' : s'.AtRest ∧ s'.mailbox.isEngaged = false ∧ s'.mailbox.length = 2 ∧
      s'.mailbox.marks.high = 2 := by
    unfold AtRest
    subst s' sending receiving e
    cbv
  -- what is left follows from these facts: the two runs need not be computed again
  clear_value s s'
  obtain ⟨hrest, hengaged, hdrained, hempty, heffects⟩ := hs
  obtain ⟨hrest', hidle, hfull, hhigh⟩ := hs'
  refine ⟨⟨hrest, hengaged, hdrained, ?_, heffects, ?_⟩, hrest', hidle, hfull, ?_⟩
  · -- engaged, but not above the low watermark
    intro hpoised
    have habove : s.mailbox.marks.low < s.mailbox.length := hpoised.above hengaged
    rw [hdrained] at habove
    exact Nat.not_lt_zero _ habove
  · -- asking for more messages changes neither the mailbox nor the notices
    intro n
    rw [run_ask_empty s hrest.2 hempty n]
    exact ⟨rfl, rfl⟩
  · -- idle, but not below the high watermark
    intro hpoised
    have hbelow : s'.mailbox.length < s'.mailbox.marks.high := hpoised.below hidle
    rw [hfull, hhigh] at hbelow
    exact Nat.lt_irrefl 2 hbelow

end Traffic

end Mailbox

end Troupe
