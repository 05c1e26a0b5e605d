import Troupe.Proofs.Mailbox.Closing

/-!
# Senders side by side

Any number of senders and one receiver share a mailbox. Each sender makes its sends one after
the other, and the steps of all calls mix. A place is taken before a message is pushed and
given back after it is popped: the count of places runs ahead of the queue on the way in and
behind it on the way out.

* `Roomy.next`, `Kept.slot` — who has a place finds a slot;
* `Numbered.next` — no number is given twice;
* `SendCall.step_passage` — a step of a send neither loses nor doubles its message;
* `Orderly.next` — what has got in of a sender's messages got in by its calls, in their order;
* `run_isOrderly` — so each sender's messages come out in the order of its calls, once.
-/

namespace Troupe

namespace Mailbox

variable {ι ω μ : Type}

open Header.Traffic (replace mem_replace sum_replace exists_replace)

/-! ## What a send is about -/

namespace SendCall

/-- The envelope that a send is about. -/
def envelope : SendCall μ → Envelope μ
  | checking e | reserving e | rejecting e | stamping e _ | pushing e _ | unreserving e => e
  | counting e _ | engaging e _ | looking e | waking e _ => e

/-- Whether a send is about to push an envelope of this number. -/
def carries (n : Nat) : SendCall μ → Nat
  | pushing e _ => if e.seq = n then 1 else 0
  | _ => 0

end SendCall

namespace Return

/-- The envelope of a send that was accepted. -/
def accepted? : Return μ → Option (Envelope μ)
  | sent e _ => some e
  | _ => none

/-- The message of a send that has returned, whether it was accepted or not. -/
def answered? : Return μ → Option μ
  | sent e _ => some e.payload
  | refused refusal => some refusal.message.payload
  | _ => none

end Return

/-- How often a number was given, if each is given once, in turn, and this one is the next. -/
def timesGiven (next n : Nat) : Nat := if n < next then 1 else 0

theorem timesGiven_le_one (next n : Nat) : timesGiven next n ≤ 1 := by
  unfold timesGiven
  split
  · exact Nat.le_refl 1
  · exact Nat.zero_le 1

theorem timesGiven_succ (next n : Nat) :
    timesGiven (next + 1) n = timesGiven next n + if next = n then 1 else 0 := by
  unfold timesGiven
  rcases Nat.lt_trichotomy n next with hlt | heq | hgt
  · rw [if_pos (by omega), if_pos hlt, if_neg (by omega)]
  · rw [if_pos (by omega), if_neg (by omega), if_pos heq.symm]
  · rw [if_neg (by omega), if_neg (by omega), if_neg (by omega)]

/-- The envelopes that were accepted, in the order in which their sends returned. -/
def accepted (history : List (Return μ)) : List (Envelope μ) := history.filterMap Return.accepted?

/-- The messages whose sends have returned, in this order. -/
def answered (history : List (Return μ)) : List μ := history.filterMap Return.answered?

/-- A step of a send neither loses nor doubles its message: it is that of the call that goes
on, or of the return; and it has got in, or gets in now, if they say so. -/
structure SendCall.Passage (m : Mailbox ω μ) (call : SendCall μ) (answer : SendCall μ ⊕ Return μ) :
    Prop where
  message : [call.envelope.payload] =
    answered answer.getRight?.toList ++ answer.getLeft?.toList.map (·.envelope.payload)
  entered : call.pushed?.toList ++ (call.entering? m).toList =
    accepted answer.getRight?.toList ++ answer.getLeft?.toList.filterMap SendCall.pushed?

/-- Every step of a send passes its message on. -/
theorem SendCall.step_passage (m : Mailbox ω μ) (call : SendCall μ) :
    Passage m call (call.step m).answer := by
  -- a call goes on with its envelope or returns with it
  cases call with
  | checking e =>
      by_cases hclosed : m.isClosed = true
      · constructor <;> simp [step, hclosed, envelope, entering?, pushed?, answered, accepted,
          Return.answered?, Return.accepted?, Refusal.message]
      · constructor <;> simp [step, hclosed, envelope, entering?, pushed?, answered, accepted]
  | reserving e =>
      by_cases hroom : m.reserved < m.marks.capacity
      · constructor <;>
          simp [step, reserve?, hroom, envelope, entering?, pushed?, answered, accepted]
      · constructor <;>
          simp [step, reserve?, hroom, envelope, entering?, pushed?, answered, accepted]
  | pushing e length =>
      -- here, and only here, the message gets in
      by_cases hslot : m.queue.length < m.marks.capacity
      · constructor <;> simp [step, push?, hslot, envelope, entering?, pushed?, answered, accepted]
      · constructor <;> simp [step, push?, hslot, envelope, entering?, pushed?, answered, accepted]
  | engaging e length =>
      by_cases hraise : m.marks.high ≤ length ∧ m.isEngaged = false
      · constructor <;> simp [step, hraise, envelope, entering?, pushed?, answered, accepted]
      · constructor <;> simp [step, hraise, envelope, entering?, pushed?, answered, accepted]
  | stamping e length =>
      constructor <;> simp [step, stamp, Envelope.stamp, envelope, entering?, pushed?, answered,
        accepted]
  | rejecting e | unreserving e | counting e length | looking e | waking e status =>
      constructor <;> simp [step, envelope, entering?, pushed?, answered, accepted,
        Return.answered?, Return.accepted?, Refusal.message]

/-- All that a step of a send says about messages is about the message of the call. -/
theorem SendCall.Passage.own {m : Mailbox ω μ} {call : SendCall μ} {answer : SendCall μ ⊕ Return μ}
    (h : Passage m call answer) :
    (∀ message ∈ answered answer.getRight?.toList, message = call.envelope.payload) ∧
      ∀ after ∈ answer.getLeft?, after.envelope.payload = call.envelope.payload := by
  have hmessage := h.message
  constructor
  · intro message hmem
    have hin : message ∈ [call.envelope.payload] := hmessage ▸ List.mem_append_left _ hmem
    exact List.mem_singleton.mp hin
  · intro after hafter
    have hmem : after.envelope.payload ∈ answer.getLeft?.toList.map (·.envelope.payload) :=
      List.mem_map_of_mem (Option.mem_toList.mpr hafter)
    have hin : after.envelope.payload ∈ [call.envelope.payload] :=
      hmessage ▸ List.mem_append_right _ hmem
    exact List.mem_singleton.mp hin

/-- What was accepted is among what was answered. -/
theorem mem_answered_of_mem_accepted {history : List (Return μ)} {e : Envelope μ}
    (he : e ∈ accepted history) : e.payload ∈ answered history := by
  obtain ⟨result, hresult, haccepted⟩ := List.mem_filterMap.mp he
  refine List.mem_filterMap.mpr ⟨result, hresult, ?_⟩
  cases result with
  | sent e' status => exact congrArg (fun e => some e.payload) (Option.some.inj haccepted)
  | _ => exact nomatch haccepted

theorem SendCall.envelope_of_entering? {m : Mailbox ω μ} {call : SendCall μ} {e : Envelope μ}
    (h : call.entering? m = some e) : call.envelope = e := by
  obtain ⟨length, rfl⟩ := entering?_eq_some h
  rfl

/-- No step of a send takes a place beyond the capacity. -/
theorem SendCall.reserved_step {m : Mailbox ω μ} (hm : m.reserved ≤ m.marks.capacity)
    (call : SendCall μ) : (call.step m).state.reserved ≤ m.marks.capacity := by
  cases call with
  | reserving e =>
      -- the only step that takes a place looks for room first
      by_cases hroom : m.reserved < m.marks.capacity
      · simp only [step, reserve?, if_pos hroom]
        exact hroom
      · simp only [step, reserve?, if_neg hroom]
        exact hm
  | pushing e length =>
      simp only [step, push?]
      split
      · next heq =>
          split at heq
          · cases heq
          · exact hm
      · next heq =>
          split at heq
          · exact Option.some.inj heq ▸ hm
          · cases heq
  | unreserving e =>
      have hle : m.reserved - 1 ≤ m.marks.capacity := by omega
      exact hle
  | engaging e length =>
      by_cases hraise : m.marks.high ≤ length ∧ m.isEngaged = false
      · simp only [step, raise, if_pos hraise]
        exact hm
      · simp only [step, if_neg hraise]
        exact hm
  | _ => exact hm

/-- No step of a receive takes a place. -/
theorem ReceiveCall.reserved_step (m : Mailbox ω μ) (call : ReceiveCall ω μ) :
    (call.step m).state.reserved ≤ m.reserved := by
  cases call with
  | popping look =>
      simp only [step]
      -- popping leaves the place for the next step to give back
      cases hpop : m.pop? with
      | none => exact Nat.le_refl _
      | some popped =>
          unfold pop? at hpop
          split at hpop
          · cases hpop
          · obtain rfl := Option.some.inj hpop
            exact Nat.le_refl _
  | releasing look e => exact Nat.sub_le _ _
  | clearing look e length =>
      simp only [step, lower]
      split
      · exact Nat.le_refl _
      · exact Nat.le_refl _
  | _ => exact Nat.le_refl _

/-- A receive answers no send. -/
theorem ReceiveCall.answered_step (m : Mailbox ω μ) (call : ReceiveCall ω μ) :
    answered (call.step m).answer.getRight?.toList = [] ∧
      accepted (call.step m).answer.getRight?.toList = [] := by
  cases call with
  | popping look =>
      simp only [step]
      -- whatever a receive returns, it is no answer to a send
      cases m.pop? with
      | none => cases look <;> exact ⟨rfl, rfl⟩
      | some popped => exact ⟨rfl, rfl⟩
  | clearing look e length => cases look <;> exact ⟨rfl, rfl⟩
  | seeking =>
      simp only [step]
      split
      · exact ⟨rfl, rfl⟩
      · exact ⟨rfl, rfl⟩
  | _ => exact ⟨rfl, rfl⟩

theorem CloseCall.answered_step (m : Mailbox ω μ) (call : CloseCall) :
    answered (call.step m).answer.getRight?.toList = [] ∧
      accepted (call.step m).answer.getRight?.toList = [] := by
  cases call with
  | _ => exact ⟨rfl, rfl⟩

/-- Only a push that finds no slot makes a send give its place back. -/
theorem SendCall.pushing_of_unreserving {m : Mailbox ω μ} {call : SendCall μ} {e : Envelope μ}
    (h : (call.step m).answer = .inl (.unreserving e)) :
    (∃ length, call = .pushing e length) ∧ m.marks.capacity ≤ m.queue.length := by
  cases call with
  | checking e' =>
      simp only [step] at h
      -- an open mailbox leads to a place, a closed one to a refusal
      split at h
      · cases h
      · cases h
  | reserving e' =>
      simp only [step] at h
      split at h
      · cases h
      · cases h
  | pushing e' length =>
      by_cases hslot : m.queue.length < m.marks.capacity
      · simp [step, push?, hslot] at h
      · simp only [step, push?, if_neg hslot, Sum.inl.injEq, unreserving.injEq] at h
        exact ⟨⟨length, by rw [h]⟩, Nat.le_of_not_lt hslot⟩
  | engaging e' length =>
      simp only [step] at h
      split at h
      · cases h
      · cases h
  | _ => cases h

/-- Stamping gives the next number, and nothing else brings a number to the push. -/
theorem SendCall.carries_step (m : Mailbox ω μ) (call : SendCall μ) (n : Nat) :
    ((call.entering? m).toList.map (·.seq)).count n +
        ((call.step m).answer.getLeft?.toList.map (carries n)).sum + timesGiven m.nextSeq n ≤
      call.carries n + timesGiven (call.step m).state.nextSeq n := by
  cases call with
  | stamping e length =>
      -- the number that is next is given to this send
      simp [step, stamp, Envelope.stamp, entering?, carries, timesGiven_succ, Nat.add_comm]
  | pushing e length =>
      -- the number leaves the send with the message, or is lost with a push that finds no slot
      by_cases hslot : m.queue.length < m.marks.capacity
      · simp [step, push?, hslot, entering?, carries, List.count_singleton]
      · simp [step, push?, hslot, entering?, carries]
  | checking e =>
      by_cases hclosed : m.isClosed = true
      · simp [step, hclosed, entering?, carries]
      · simp [step, hclosed, entering?, carries]
  | reserving e =>
      by_cases hroom : m.reserved < m.marks.capacity
      · simp [step, reserve?, hroom, entering?, carries]
      · simp [step, reserve?, hroom, entering?, carries]
  | engaging e length =>
      by_cases hraise : m.marks.high ≤ length ∧ m.isEngaged = false
      · simp [step, hraise, raise, entering?, carries]
      · simp [step, hraise, entering?, carries]
  | rejecting e | unreserving e | counting e length | looking e | waking e status =>
      simp [step, reject, unreserve, accept, wake, entering?, carries]

namespace Traffic

variable {s : Traffic ω μ}

/-! ## Places and slots -/

/-- No more places are taken than there are slots, and no send has to give its place back. -/
structure Roomy (s : Traffic ω μ) : Prop where
  reserved_le : s.mailbox.reserved ≤ s.mailbox.marks.capacity
  kept : ∀ e, .unreserving e ∉ s.sends

theorem roomy_start (marks : Watermarks) : (start marks : Traffic ω μ).Roomy :=
  ⟨Nat.zero_le _, fun _ he => nomatch he⟩

/-- A send that is about to push finds a slot: it has a place that is not in use yet. -/
theorem Kept.slot (hs : s.Kept) (hroomy : s.Roomy) {e : Envelope μ} {length : Nat}
    (hcall : .pushing e length ∈ s.sends) :
    s.mailbox.queue.length < s.mailbox.marks.capacity := by
  obtain ⟨index, hindex⟩ := List.mem_iff_getElem?.mp hcall
  -- its place is among those on their way in
  obtain ⟨rest, hplaces, -⟩ := sum_replace SendCall.places hindex
  have hin : s.onWayIn = rest + 1 := hplaces
  have hreserved := hs.reserved
  have hle := hroomy.reserved_le
  omega

/-- Nobody takes a place that is not there, so nobody has to give one back for want of a slot. -/
theorem Roomy.next (hroomy : s.Roomy) (hs : s.Kept) (action : Action ω μ) :
    (s.next action).Roomy := by
  cases action with
  | send index =>
      cases hcall : s.sends[index]? with
      | none => rwa [next_send_none hcall]
      | some call =>
          have hmove := call.step_move s.mailbox
          rw [next_send hcall]
          constructor
          · have hreserved := call.reserved_step hroomy.reserved_le
            exact hmove.marks ▸ hreserved
          · intro e he
            rcases mem_replace he with hold | hafter
            · exact hroomy.kept e hold
            · -- the only way to get here is a push without a slot, and there is one
              have hafter := Sum.getLeft?_eq_some_iff.mp hafter
              obtain ⟨⟨length, rfl⟩, hfull⟩ := SendCall.pushing_of_unreserving hafter
              have hslot := hs.slot hroomy (List.mem_of_getElem? hcall)
              omega
  | receive =>
      cases hcall : s.receiver with
      | none => rwa [next_receive_none hcall]
      | some call =>
          have hmove := call.step_move s.mailbox
          -- receives only give places back
          have hreserved := call.reserved_step s.mailbox
          rw [next_receive hcall]
          refine ⟨?_, hroomy.kept⟩
          rw [hmove.marks]
          exact Nat.le_trans hreserved hroomy.reserved_le
  | close index =>
      cases hcall : s.closes[index]? with
      | none => rwa [next_close_none hcall]
      | some call =>
          have hmove := call.step_move s.mailbox
          rw [next_close hcall]
          refine ⟨?_, hroomy.kept⟩
          rw [hmove.marks, hmove.reserved]
          exact hroomy.reserved_le
  | callSend e =>
      refine ⟨hroomy.reserved_le, fun e' he => ?_⟩
      rcases List.mem_append.mp he with hold | hnew
      · exact hroomy.kept e' hold
      · exact nomatch List.mem_singleton.mp hnew
  | callClose => exact ⟨hroomy.reserved_le, hroomy.kept⟩
  | callDequeue | callPoll =>
      simp only [Traffic.next, begin]
      split
      · exact ⟨hroomy.reserved_le, hroomy.kept⟩
      · exact hroomy

/-! ## Numbers -/

/-- No number is given twice, and none is given before its turn. -/
def Numbered (s : Traffic ω μ) : Prop :=
  ∀ n, (s.outlet.map (·.seq)).count n + (s.sends.map (SendCall.carries n)).sum ≤
    timesGiven s.mailbox.nextSeq n

theorem numbered_start (marks : Watermarks) : (start marks : Traffic ω μ).Numbered := by
  intro n
  simp [start, outlet, hand, delivered, ofMarks]

/-- What leaves messages, sends and numbers alone. -/
theorem Numbered.of_same {s' : Traffic ω μ} (hs : s.Numbered) (houtlet : s'.outlet = s.outlet)
    (hsends : s'.sends = s.sends) (hnext : s'.mailbox.nextSeq = s.mailbox.nextSeq) :
    s'.Numbered := by
  intro n
  rw [houtlet, hsends, hnext]
  exact hs n

/-- A step of a send gives at most the number that is next. -/
theorem Numbered.send (hs : s.Numbered) (index : Nat) : (s.next (.send index)).Numbered := by
  cases hcall : s.sends[index]? with
  | none => rwa [next_send_none hcall]
  | some call =>
      intro n
      have hbefore := hs n
      have hstep := call.carries_step s.mailbox n
      have houtlet := outlet_send hcall
      -- the number goes from this send to the outlet; the other sends carry what they carried
      obtain ⟨rest, hsum, hsum'⟩ := sum_replace (SendCall.carries n) hcall
      rw [houtlet, List.map_append, List.count_append, next_send hcall]
      simp only [hsum'] at hbefore ⊢
      omega

/-- Whatever happens, every number is given at most once. -/
theorem Numbered.next (hs : s.Numbered) (action : Action ω μ) : (s.next action).Numbered := by
  cases action with
  | send index => exact hs.send index
  | receive =>
      -- a receive passes a message from the queue to its hand or on: the outlet is the same
      have houtlet := outlet_receive s
      cases hcall : s.receiver with
      | none => rwa [next_receive_none hcall]
      | some call =>
          have hmove := call.step_move s.mailbox
          refine hs.of_same houtlet ?_ ?_
          · rw [next_receive hcall]
          · rw [next_receive hcall, hmove.nextSeq]
  | close index =>
      have houtlet := outlet_close s index
      cases hcall : s.closes[index]? with
      | none => rwa [next_close_none hcall]
      | some call =>
          have hmove := call.step_move s.mailbox
          refine hs.of_same houtlet ?_ ?_
          · rw [next_close hcall]
          · rw [next_close hcall, hmove.nextSeq]
  | callSend e =>
      intro n
      have hsum : ((s.next (.callSend e)).sends.map (SendCall.carries n)).sum =
          (s.sends.map (SendCall.carries n)).sum := by
        simp [Traffic.next, SendCall.carries]
      rw [hsum]
      exact hs n
  | callClose => exact hs
  | callDequeue | callPoll =>
      simp only [Traffic.next, begin]
      split
      · next hcall => exact hs.of_same (by simp [outlet, hand, hcall, ReceiveCall.hand?]) rfl rfl
      · exact hs

/-! ## The sends of one sender -/

theorem accepted_append (before after : List (Return μ)) :
    accepted (before ++ after) = accepted before ++ accepted after :=
  List.filterMap_append

theorem answered_append (before after : List (Return μ)) :
    answered (before ++ after) = answered before ++ answered after :=
  List.filterMap_append

section Senders

variable [DecidableEq ι] (who : μ → ι) (i : ι)

/-- The messages of one sender. -/
def messagesOf (messages : List μ) : List μ := messages.filter fun message => who message = i

/-- The envelopes with the messages of one sender. -/
def mailOf (es : List (Envelope μ)) : List (Envelope μ) := es.filter fun e => who e.payload = i

/-- The sends that a sender is in the middle of. -/
def callsOf (s : Traffic ω μ) : List (SendCall μ) :=
  s.sends.filter fun call => who call.envelope.payload = i

theorem mailOf_append (es es' : List (Envelope μ)) :
    mailOf who i (es ++ es') = mailOf who i es ++ mailOf who i es' :=
  List.filter_append ..

theorem messagesOf_append (ms ms' : List μ) :
    messagesOf who i (ms ++ ms') = messagesOf who i ms ++ messagesOf who i ms' :=
  List.filter_append ..

variable {who i}

theorem mailOf_eq_self (who : μ → ι) {es : List (Envelope μ)}
    (h : ∀ e ∈ es, who e.payload = i) :
    mailOf who i es = es :=
  List.filter_eq_self.mpr fun e he => by simpa using h e he

theorem mailOf_eq_nil (who : μ → ι) {es : List (Envelope μ)}
    (h : ∀ e ∈ es, who e.payload ≠ i) :
    mailOf who i es = [] :=
  List.filter_eq_nil_iff.mpr fun e he => by simpa using h e he

theorem messagesOf_eq_self (who : μ → ι) {ms : List μ}
    (h : ∀ m ∈ ms, who m = i) : messagesOf who i ms = ms :=
  List.filter_eq_self.mpr fun m hm => by simpa using h m hm

theorem messagesOf_eq_nil (who : μ → ι) {ms : List μ}
    (h : ∀ m ∈ ms, who m ≠ i) : messagesOf who i ms = [] :=
  List.filter_eq_nil_iff.mpr fun m hm => by simpa using h m hm

/-- A sender in the middle of one send at most is in the middle of the one that makes a step,
and of what it goes on with. -/
theorem callsOf_send_self {index : Nat} {call : SendCall μ}
    (hcall : s.sends[index]? = some call) (hsingle : (callsOf who i s).length ≤ 1)
    (hown : who call.envelope.payload = i) :
    callsOf who i s = [call] ∧ callsOf who i (s.next (.send index)) =
      (call.step s.mailbox).answer.getLeft?.toList := by
  obtain ⟨before, behind, hsplit, hreplace⟩ := exists_replace hcall
  have hafter := (call.step_passage s.mailbox).own.2
  simp only [callsOf, hsplit, List.filter_append, List.filter_cons, hown, decide_true, if_true,
    List.length_append, List.length_cons] at hsingle ⊢
  -- the sender is in the middle of this send, so of none before or behind it
  have hbefore : before.filter (fun call => who call.envelope.payload = i) = [] :=
    List.length_eq_zero_iff.mp (by omega)
  have hbehind : behind.filter (fun call => who call.envelope.payload = i) = [] :=
    List.length_eq_zero_iff.mp (by omega)
  constructor
  · rw [hbefore, hbehind]
    rfl
  · rw [next_send hcall, hreplace]
    simp only [List.filter_append, hbefore, hbehind, List.nil_append, List.append_nil]
    refine List.filter_eq_self.mpr fun after hmem => ?_
    rw [hafter after (Option.mem_toList.mp hmem), hown]
    exact decide_eq_true rfl

/-- The other senders are in the middle of the same sends as before. -/
theorem callsOf_send_other {index : Nat} {call : SendCall μ}
    (hcall : s.sends[index]? = some call) (hother : who call.envelope.payload ≠ i) :
    callsOf who i (s.next (.send index)) = callsOf who i s := by
  obtain ⟨before, behind, hsplit, hreplace⟩ := exists_replace hcall
  have hafter := (call.step_passage s.mailbox).own.2
  have hnone : (call.step s.mailbox).answer.getLeft?.toList.filter
      (fun call => who call.envelope.payload = i) = [] := by
    refine List.filter_eq_nil_iff.mpr fun after hmem => ?_
    rw [hafter after (Option.mem_toList.mp hmem)]
    simpa using hother
  rw [callsOf, callsOf, next_send hcall, hreplace, hsplit]
  simp [List.filter_append, hnone, hother]

/-- A step of a send turns a call of one sender into its return or into what it goes on with;
what gets in by it is of the same sender. -/
theorem share_send {index : Nat} {call : SendCall μ} (hcall : s.sends[index]? = some call)
    (hsingle : (callsOf who i s).length ≤ 1) :
    (callsOf who i (s.next (.send index))).length ≤ 1 ∧
      messagesOf who i (answered (call.step s.mailbox).answer.getRight?.toList) ++
          (callsOf who i (s.next (.send index))).map (·.envelope.payload) =
        (callsOf who i s).map (·.envelope.payload) ∧
      mailOf who i (accepted (call.step s.mailbox).answer.getRight?.toList) ++
          (callsOf who i (s.next (.send index))).filterMap SendCall.pushed? =
        (callsOf who i s).filterMap SendCall.pushed? ++
          mailOf who i (call.entering? s.mailbox).toList := by
  have hpassage := call.step_passage s.mailbox
  have hanswered := hpassage.own.1
  have haccepted : ∀ e ∈ accepted (call.step s.mailbox).answer.getRight?.toList,
      e.payload = call.envelope.payload :=
    fun e he => hanswered _ (mem_answered_of_mem_accepted he)
  have hentering : ∀ e ∈ (call.entering? s.mailbox).toList,
      e.payload = call.envelope.payload :=
    fun e he => by rw [SendCall.envelope_of_entering? (Option.mem_toList.mp he)]
  -- the sends of one sender: either this is its only one, or the step is none of its business
  by_cases hown : who call.envelope.payload = i
  · obtain ⟨hbefore, hafter⟩ := callsOf_send_self hcall hsingle hown
    have hmessages := messagesOf_eq_self who fun m hm => (hanswered m hm).symm ▸ hown
    have hmail := mailOf_eq_self who fun e he => (haccepted e he).symm ▸ hown
    have hmail' := mailOf_eq_self who fun e he => (hentering e he).symm ▸ hown
    rw [hbefore, hafter, hmessages, hmail, hmail', ← hpassage.message, ← hpassage.entered]
    refine ⟨?_, rfl, ?_⟩
    · cases (call.step s.mailbox).answer.getLeft? with
      | none => exact Nat.zero_le 1
      | some after => exact Nat.le_refl 1
    · cases hpushed : call.pushed? with
      | none => simp [hpushed]
      | some e => simp [hpushed]
  · have hmessages := messagesOf_eq_nil who fun m hm => (hanswered m hm).symm ▸ hown
    have hmail := mailOf_eq_nil who fun e he => (haccepted e he).symm ▸ hown
    have hmail' := mailOf_eq_nil who fun e he => (hentering e he).symm ▸ hown
    rw [callsOf_send_other hcall hown, hmessages, hmail, hmail', List.append_nil]
    exact ⟨hsingle, rfl, rfl⟩

end Senders

end Traffic

/-- Traffic in which each sender makes one send at a time, and all messages that were to be
sent, in the order of the calls. -/
structure Crowd (ω μ : Type) where
  traffic : Traffic ω μ
  asked : List μ

namespace Crowd

open Traffic (mailOf messagesOf callsOf)

variable [DecidableEq ι] (who : μ → ι)

/-- A new mailbox that nobody has sent anything to. -/
def start (marks : Watermarks) : Crowd ω μ := ⟨.start marks, []⟩

/-- What comes of an action. A sender that is in the middle of a send makes no other. -/
def next (c : Crowd ω μ) : Traffic.Action ω μ → Crowd ω μ
  | .callSend e =>
    if callsOf who (who e.payload) c.traffic = [] then
      ⟨c.traffic.next (.callSend e), c.asked ++ [e.payload]⟩
    else c
  | action => ⟨c.traffic.next action, c.asked⟩

/-- What comes of actions one after another. -/
def run (c : Crowd ω μ) (actions : List (Traffic.Action ω μ)) : Crowd ω μ :=
  actions.foldl (next who) c

/-- What holds at the start and is kept by every action holds after every run. -/
theorem run_invariant {P : Crowd ω μ → Prop} {c : Crowd ω μ} (hc : P c)
    (hnext : ∀ c action, P c → P (c.next who action)) (actions : List (Traffic.Action ω μ)) :
    P (c.run who actions) := by
  induction actions generalizing c with
  | nil => exact hc
  | cons action rest ih => exact ih (hnext c action hc)

/-- Each sender's messages have got in by its calls, in their order. -/
structure Orderly (c : Crowd ω μ) : Prop where
  single : ∀ i, (callsOf who i c.traffic).length ≤ 1
  /-- What a sender was to send is what its sends have returned with, and what the send that
  it is in the middle of is about. -/
  asked : ∀ i, messagesOf who i c.asked =
    messagesOf who i (answered c.traffic.history) ++
      (callsOf who i c.traffic).map (·.envelope.payload)
  outlet : ∀ i, mailOf who i c.traffic.outlet =
    mailOf who i (accepted c.traffic.history) ++
      (callsOf who i c.traffic).filterMap SendCall.pushed?

theorem orderly_start (marks : Watermarks) : (start marks : Crowd ω μ).Orderly who := by
  constructor <;> intro i <;> simp [start, Traffic.start, callsOf, messagesOf, mailOf, answered,
    accepted, Traffic.outlet, Traffic.hand, delivered, ofMarks]

variable {who}
variable {c : Crowd ω μ}

/-- What leaves the sends and the messages that have got in alone. -/
theorem Orderly.of_same (hc : c.Orderly who) {s : Traffic ω μ} (hsends : s.sends = c.traffic.sends)
    (houtlet : s.outlet = c.traffic.outlet) {results : List (Return μ)}
    (hhistory : s.history = c.traffic.history ++ results) (hanswered : answered results = [])
    (haccepted : accepted results = []) : (⟨s, c.asked⟩ : Crowd ω μ).Orderly who := by
  -- the same sends are in progress, and nothing was answered
  have hcalls : ∀ i, callsOf who i s = callsOf who i c.traffic := by
    intro i
    rw [callsOf, hsends, callsOf]
  constructor
  · intro i
    rw [hcalls]
    exact hc.single i
  · intro i
    rw [hcalls, hhistory, Traffic.answered_append, hanswered, List.append_nil]
    exact hc.asked i
  · intro i
    rw [hcalls, hhistory, Traffic.accepted_append, haccepted, List.append_nil, houtlet]
    exact hc.outlet i

/-- A step of a send is a matter of its sender alone. -/
theorem Orderly.send (hc : c.Orderly who) (index : Nat) :
    (c.next who (.send index)).Orderly who := by
  cases hcall : c.traffic.sends[index]? with
  | none =>
      have hnone : c.next who (.send index) = c := by
        simp only [next, Traffic.next_send_none hcall]
      rwa [hnone]
  | some call =>
      have houtlet := Traffic.outlet_send hcall
      have hhistory : (c.traffic.next (.send index)).history =
          c.traffic.history ++ (call.step c.traffic.mailbox).answer.getRight?.toList := by
        rw [Traffic.next_send hcall]
      constructor
      · intro i
        exact (Traffic.share_send hcall (hc.single i)).1
      · intro i
        have hshare := (Traffic.share_send hcall (hc.single i)).2.1
        show messagesOf who i c.asked =
          messagesOf who i (answered (c.traffic.next (.send index)).history) ++
            (callsOf who i (c.traffic.next (.send index))).map (·.envelope.payload)
        rw [hhistory, Traffic.answered_append, Traffic.messagesOf_append, List.append_assoc, hshare]
        exact hc.asked i
      · intro i
        have hshare := (Traffic.share_send hcall (hc.single i)).2.2
        show mailOf who i (c.traffic.next (.send index)).outlet =
          mailOf who i (accepted (c.traffic.next (.send index)).history) ++
            (callsOf who i (c.traffic.next (.send index))).filterMap SendCall.pushed?
        rw [houtlet, hhistory, Traffic.accepted_append, Traffic.mailOf_append,
          Traffic.mailOf_append, List.append_assoc, hshare, hc.outlet i, List.append_assoc]

/-- A sender that is in the middle of nothing begins a send. -/
theorem Orderly.callSend (hc : c.Orderly who) (e : Envelope μ) :
    (c.next who (.callSend e)).Orderly who := by
  simp only [next]
  split
  · next hfree =>
      -- the new send stands behind those in progress, and has pushed nothing
      have hcalls : ∀ i, callsOf who i (c.traffic.next (.callSend e)) =
          callsOf who i c.traffic ++ if who e.payload = i then [.checking e] else [] := by
        intro i
        simp only [callsOf, Traffic.next, List.filter_append]
        by_cases hi : who e.payload = i
        · simp [hi, SendCall.envelope]
        · simp [hi, SendCall.envelope]
      constructor
      · intro i
        show (callsOf who i (c.traffic.next (.callSend e))).length ≤ 1
        rw [hcalls]
        -- whoever was free is in the middle of this one now
        by_cases hi : who e.payload = i
        · subst hi
          rw [hfree, if_pos rfl]
          exact Nat.le_refl 1
        · rw [if_neg hi, List.append_nil]
          exact hc.single i
      · intro i
        show messagesOf who i (c.asked ++ [e.payload]) =
          messagesOf who i (answered c.traffic.history) ++
            (callsOf who i (c.traffic.next (.callSend e))).map (·.envelope.payload)
        rw [hcalls, Traffic.messagesOf_append, hc.asked i, List.map_append, List.append_assoc]
        by_cases hi : who e.payload = i
        · simp [messagesOf, hi, SendCall.envelope]
        · simp [messagesOf, hi]
      · intro i
        show mailOf who i c.traffic.outlet = mailOf who i (accepted c.traffic.history) ++
          (callsOf who i (c.traffic.next (.callSend e))).filterMap SendCall.pushed?
        rw [hcalls, hc.outlet i]
        by_cases hi : who e.payload = i
        · simp [hi, SendCall.pushed?]
        · simp [hi]
  · exact hc

/-- The receiver that makes a call has nothing in hand yet. -/
theorem Orderly.begin (hc : c.Orderly who) (look : Look ω) :
    (⟨c.traffic.begin look, c.asked⟩ : Crowd ω μ).Orderly who := by
  unfold Traffic.begin
  split
  · next hcall =>
      have houtlet : Traffic.outlet { c.traffic with receiver := some (.popping look) } =
          c.traffic.outlet := by
        simp [Traffic.outlet, Traffic.hand, hcall, ReceiveCall.hand?]
      exact hc.of_same rfl houtlet (List.append_nil _).symm rfl rfl
  · exact hc

/-- Whatever happens, each sender's messages get in by its calls. -/
theorem Orderly.next (hc : c.Orderly who) (action : Traffic.Action ω μ) :
    (c.next who action).Orderly who := by
  cases action with
  | send index => exact hc.send index
  | callSend e => exact hc.callSend e
  | receive =>
      have houtlet := Traffic.outlet_receive c.traffic
      show (⟨c.traffic.next .receive, c.asked⟩ : Crowd ω μ).Orderly who
      cases hcall : c.traffic.receiver with
      | none => rwa [Traffic.next_receive_none hcall]
      | some call =>
          obtain ⟨hanswered, haccepted⟩ := call.answered_step c.traffic.mailbox
          have hnext := Traffic.next_receive hcall
          exact hc.of_same (by rw [hnext]) houtlet (by rw [hnext]) hanswered haccepted
  | close index =>
      have houtlet := Traffic.outlet_close c.traffic index
      show (⟨c.traffic.next (.close index), c.asked⟩ : Crowd ω μ).Orderly who
      cases hcall : c.traffic.closes[index]? with
      | none => rwa [Traffic.next_close_none hcall]
      | some call =>
          obtain ⟨hanswered, haccepted⟩ := call.answered_step c.traffic.mailbox
          have hnext := Traffic.next_close hcall
          exact hc.of_same (by rw [hnext]) houtlet (by rw [hnext]) hanswered haccepted
  | callClose => exact ⟨hc.single, hc.asked, hc.outlet⟩
  | callDequeue => exact hc.begin .single
  | callPoll w => exact hc.begin (.first w)

/-! ## What the mailbox promises to its senders -/

/-- An action is done, or it is a call of a busy sender, which is not heard. -/
theorem traffic_next (who : μ → ι) (c : Crowd ω μ) (action : Traffic.Action ω μ) :
    (c.next who action).traffic = c.traffic ∨
      (c.next who action).traffic = c.traffic.next action := by
  cases action with
  | callSend e =>
      simp only [next]
      split
      · exact .inr rfl
      · exact .inl rfl
  | _ => exact .inr rfl

/-- All that is known of a crowd at a mailbox of a given sizing. -/
structure Kept (who : μ → ι) (marks : Watermarks) (c : Crowd ω μ) : Prop where
  traffic : c.traffic.Kept
  roomy : c.traffic.Roomy
  numbered : c.traffic.Numbered
  orderly : c.Orderly who
  marks_eq : c.traffic.mailbox.marks = marks

/-- Every action keeps all of this. -/
theorem Kept.next {marks : Watermarks} (hc : c.Kept who marks) (action : Traffic.Action ω μ) :
    (c.next who action).Kept who marks := by
  have horderly := hc.orderly.next action
  rcases traffic_next who c action with hsame | hdone
  · exact ⟨hsame ▸ hc.traffic, hsame ▸ hc.roomy, hsame ▸ hc.numbered, horderly,
      hsame ▸ hc.marks_eq⟩
  · have htraffic := hc.traffic.next action
    have hroomy := hc.roomy.next hc.traffic action
    have hnumbered := hc.numbered.next action
    have hmarks := (Traffic.marks_next c.traffic action).trans hc.marks_eq
    exact ⟨hdone ▸ htraffic, hdone ▸ hroomy, hdone ▸ hnumbered, horderly, hdone ▸ hmarks⟩

theorem kept_run (who : μ → ι) (marks : Watermarks) (actions : List (Traffic.Action ω μ)) :
    ((start marks).run who actions).Kept who marks := by
  -- step by step, all facts together: room and numbers need what the traffic keeps
  apply run_invariant
  · exact ⟨Traffic.kept_start marks, Traffic.roomy_start marks, Traffic.numbered_start marks,
      orderly_start who marks, rfl⟩
  · intro c action hc
    exact hc.next action

/-- Accepted messages are answered messages, in the same order. -/
theorem accepted_sublist (history : List (Return μ)) :
    ((accepted history).map (·.payload)).Sublist (answered history) := by
  induction history with
  | nil => exact List.Sublist.slnil
  | cons result rest ih =>
      -- a refusal answers and accepts nothing
      cases result with
      | sent e status => exact ih.cons_cons _
      | refused refusal => exact ih.cons _
      | _ => exact ih

theorem pushed_sublist (calls : List (SendCall μ)) :
    ((calls.filterMap SendCall.pushed?).map (·.payload)).Sublist
      (calls.map (·.envelope.payload)) := by
  induction calls with
  | nil => exact List.Sublist.slnil
  | cons call rest ih =>
      cases call with
      | counting e _ | engaging e _ | looking e | waking e _ => exact ih.cons_cons _
      | _ => exact ih.cons _

theorem mailOf_payloads (i : ι) (es : List (Envelope μ)) :
    (mailOf who i es).map (·.payload) = messagesOf who i (es.map (·.payload)) := by
  rw [mailOf, messagesOf, List.filter_map]
  rfl

/-- What has got in of a sender's messages is some of what it was to send, in that order. -/
theorem Orderly.order (hc : c.Orderly who) (i : ι) :
    ((mailOf who i c.traffic.outlet).map (·.payload)).Sublist (messagesOf who i c.asked) := by
  have haccepted : ((mailOf who i (accepted c.traffic.history)).map (·.payload)).Sublist
      (messagesOf who i (answered c.traffic.history)) := by
    rw [mailOf_payloads]
    exact (accepted_sublist c.traffic.history).filter _
  -- both sides are what has returned and what is in progress: compare part by part
  rw [hc.outlet i, hc.asked i, List.map_append]
  exact haccepted.append (pushed_sublist _)

/-- What a mailbox that many send to promises at any moment. -/
structure IsSafe (who : μ → ι) (marks : Watermarks) (c : Crowd ω μ) : Prop where
  length_le : c.traffic.mailbox.length ≤ marks.capacity
  /-- The length is the messages queued, the places taken by sends that have not pushed yet, and
  the places of messages popped that have not been given back yet. -/
  length_eq : c.traffic.mailbox.length =
    c.traffic.mailbox.queue.length + c.traffic.onWayIn + c.traffic.onWayOut
  /-- Whoever is about to push finds a slot, -/
  slot : ∀ e length, .pushing e length ∈ c.traffic.sends →
    ∃ pushed, c.traffic.mailbox.push? e = some pushed
  /-- so nobody ever has to give a place back. -/
  kept : ∀ e, .unreserving e ∉ c.traffic.sends
  /-- Of each sender: the messages handed out, then those in the receiver's hand, then those
  queued, are the accepted ones, and then the one that a send in progress has got in. -/
  fifo : ∀ i, mailOf who i (delivered c.traffic.history) ++ mailOf who i c.traffic.hand ++
      mailOf who i c.traffic.mailbox.queue =
    mailOf who i (accepted c.traffic.history) ++
      (callsOf who i c.traffic).filterMap SendCall.pushed?
  /-- These are some of the messages that it was to send, in the order of its calls, -/
  order : ∀ i, ((mailOf who i (accepted c.traffic.history) ++
      (callsOf who i c.traffic).filterMap SendCall.pushed?).map (·.payload)).Sublist
    (messagesOf who i c.asked)
  /-- and none is handed out twice. -/
  once : ((delivered c.traffic.history).map (·.seq)).Nodup

/-- However the steps of any number of senders and of the receiver mix, if each sender makes
one send at a time: the length counts what is queued or on its way, a push that follows a
reservation finds a slot, and each sender's messages come out in its order, each once. -/
theorem run_isSafe (who : μ → ι) (marks : Watermarks) (actions : List (Traffic.Action ω μ)) :
    ((start marks).run who actions).IsSafe who marks := by
  have hc := kept_run who marks actions
  generalize (start marks).run who actions = c at hc ⊢
  have hsplit : ∀ i, mailOf who i c.traffic.outlet = mailOf who i (delivered c.traffic.history) ++
      mailOf who i c.traffic.hand ++ mailOf who i c.traffic.mailbox.queue := by
    intro i
    rw [Traffic.outlet, Traffic.mailOf_append, Traffic.mailOf_append]
  constructor
  · rw [← hc.marks_eq]
    exact hc.roomy.reserved_le
  · exact hc.traffic.reserved
  · intro e length he
    have hslot := hc.traffic.slot hc.roomy he
    exact ⟨_, by rw [push?, if_pos hslot]⟩
  · exact hc.roomy.kept
  · intro i
    rw [← hsplit]
    exact hc.orderly.outlet i
  · intro i
    rw [← hc.orderly.outlet i]
    exact hc.orderly.order i
  -- what was handed out is a part of the outlet, in which no number stands twice
  · have honce : (c.traffic.outlet.map (·.seq)).Nodup := by
      rw [List.nodup_iff_count_le_one]
      intro n
      have hcount := hc.numbered n
      have hgiven := timesGiven_le_one c.traffic.mailbox.nextSeq n
      omega
    refine honce.sublist (List.Sublist.map _ ?_)
    rw [Traffic.outlet, List.append_assoc]
    exact List.sublist_append_left _ _

/-- Sender 0 gets its number first and its message in last: numbers ascend for each sender, not
for all of them together. -/
example :
    let e (i : Nat) : Envelope Nat := ⟨i, .isolated, none, 0⟩
    let c := (start ⟨2, 2, 0⟩ : Crowd Unit Nat).run id
      [.callSend (e 0), .callSend (e 1), .send 0, .send 0, .send 0, .send 1, .send 1, .send 1,
        .send 1, .send 0]
    c.traffic.mailbox.queue.map (fun e => (e.payload, e.seq)) = [(1, 2), (0, 1)] := by
  cbv

end Crowd

end Mailbox

end Troupe
