import Troupe.Payload
import Troupe.Proofs.Agent.Steps
import Troupe.Proofs.Node.Seat

/-!
# How far an ended agent empties its mailbox

An agent that reads its mailbox until nothing comes, and then waits, is asked to end. Its
mailbox takes nothing in any more, and what is in it can still be read: but the agent is
given its last word as soon as it wants to wait, and it wants to wait as soon as the
budget of its turn is spent.

* `Fit` — the places of such an agent in its turn, with what its books say there;
* `Living.reaches` — as long as nobody asks it to end, it reads what was accepted in order;
* `inevitable_lastWord` — asked to end, it still reads what its allowance covers;
* `heard_eq_accepted_iff` — so it reads everything if, and only if, the allowance covers it.
-/

namespace Troupe

namespace Node

variable {μ ε : Type}

/-! ## Agents that read their mailbox out -/

/-- A change that leaves the seat of an agent as it stands. -/
def Minds (id : AgentId) (f : Node μ ε → Node μ ε) : Prop :=
  ∀ n v, n.Seated id v → (f n).Seated id v

/-- The program comes to wait, without another receive. -/
inductive Waits (id : AgentId) : Program (Node μ ε) μ (Except String Step) → Prop where
  | answer : Waits id (.answer (.ok .wait))
  | change {f : Node μ ε → Node μ ε} {next : Node μ ε → Program (Node μ ε) μ (Except String Step)}
      (hf : Minds id f) (hnext : ∀ n, Waits id (next n)) : Waits id (.change f next)

/-- The program receives until nothing comes and then waits; what it does after so many
receives does not matter. -/
inductive Reads (id : AgentId) : Nat → Program (Node μ ε) μ (Except String Step) → Prop where
  | beyond {p : Program (Node μ ε) μ (Except String Step)} : Reads id 0 p
  | change {k : Nat} {f : Node μ ε → Node μ ε}
      {next : Node μ ε → Program (Node μ ε) μ (Except String Step)}
      (hf : Minds id f) (hnext : ∀ n, Reads id k (next n)) : Reads id k (.change f next)
  | receive {k : Nat} {next : Option (Envelope μ) → Program (Node μ ε) μ (Except String Step)}
      (hnone : Waits id (next none)) (hsome : ∀ e, Reads id k (next (some e))) :
      Reads id (k + 1) (.receive next)

/-- An agent of a node. -/
def resident (behavior : Behavior (Node μ ε) μ) (policy : Policy) (id : AgentId) (quantum : Nat) :
    Resident (Node μ ε) μ :=
  ⟨behavior, Node.around id, policy, id, quantum⟩

/-- What the others do: they write to the agent, or do something that leaves its seat as
it stands, such as waking it. -/
inductive Others [Transferable μ] (id : AgentId) :
    Pace (Node μ ε) μ → Pace (Node μ ε) μ → Prop where
  | sent {c : Pace (Node μ ε) μ} {message : μ} {sender : Option AgentId} {e : Envelope μ}
      {status : Status} (hseal : Envelope.trySeal message sender = .ok e)
      (hok : (c.world.send id message sender).2 = .ok status) :
      Others id c { c with
        world := (c.world.send id message sender).1
        history := c.history ++ [.accepted (e.stamp (c.world.nextSeq id))] }
  | refused {c : Pace (Node μ ε) μ} {message : μ} {sender : Option AgentId} {refusal : Refusal μ}
      (herror : (c.world.send id message sender).2 = .error refusal) :
      Others id c { c with world := (c.world.send id message sender).1 }
  | elsewhere {c : Pace (Node μ ε) μ} {world : Node μ ε}
      (h : ∀ v, c.world.Seated id v → world.Seated id v) : Others id c { c with world }

/-- The agent knows that nothing more comes: the mailbox was empty, or the budget spent. -/
def Told (t : TurnBooks) : Prop :=
  (t.drained = true ∧ t.exhausted = false ∧ 0 < t.budget) ∨
    (t.drained = false ∧ t.exhausted = true ∧ t.budget = 0)

/-- Where an agent that reads its mailbox out can be while nobody has asked it to end. -/
inductive Fit (id : AgentId) (t : TurnBooks) : Point (Node μ ε) μ → Prop where
  | away {ending : TurnEnd} (h : ending ≠ .done) : Fit id t (.ended ending)
  | resuming {left : Nat} (hb : 0 < t.budget) (he : t.exhausted = false) :
      Fit id t (.resuming left)
  | reading {left k : Nat} {p : Program (Node μ ε) μ (Except String Step)} (hp : Reads id k p)
      (hk : t.budget < k) (hd : t.drained = false) (he : t.exhausted = false) :
      Fit id t (.running left p)
  | told {left : Nat} {p : Program (Node μ ε) μ (Except String Step)} (hp : Waits id p)
      (ht : Told t) : Fit id t (.running left p)
  | answered {left : Nat} (ht : Told t) : Fit id t (.answered left (.ok .wait))
  | waiting {left : Nat} (ht : Told t) : Fit id t (.waiting left)
  | enlisting {left : Nat} (ht : Told t) : Fit id t (.enlisting left)
  | enlisted {left : Nat} (ht : Told t) : Fit id t (.enlisted left)

/-- How many messages an agent can still read that is asked to end at some point of its
turn, before it is given its last word. -/
def allowance (quantum : Nat) (t : TurnBooks) : Point (Node μ ε) μ → Nat
  | .ended _ => quantum
  | .resuming 0 => quantum
  | .resuming (_ + 1) => t.budget
  | .running _ _ => if t.drained || t.exhausted then 0 else t.budget
  -- it will see that it was asked to end
  | .answered _ _ => 0
  -- it has just seen that it was not
  | .waiting left | .enlisting left | .enlisted left =>
    if t.drained && left != 0 then t.budget else quantum
  | .stopping _ => 0

/-! ## One step -/

section Step

variable {behavior : Behavior (Node μ ε) μ} {policy : Policy} {id : AgentId} {quantum : Nat}
  {w : Node μ ε} {v : Standing μ} {t : TurnBooks} {restarts left : Nat} {h : List (Event μ)}

/-- A turn that ended short of the agent's end is followed by a new turn. -/
theorem advance_away {ending : TurnEnd} (hne : ending ≠ .done) :
    (resident behavior policy id quantum).advance ⟨w, t, restarts, .ended ending, h⟩ =
      ⟨w, .opened quantum, restarts, .resuming quantum, h⟩ := by
  cases ending with
  | done => exact absurd rfl hne
  | _ => rfl

/-- With something to read, or nobody asking, the behaviour is resumed. -/
theorem advance_resuming (hw : w.Seated id v) (hgo : v.isTerminating = true → v.queue ≠ []) :
    (resident behavior policy id quantum).advance ⟨w, t, restarts, .resuming (left + 1), h⟩ =
      ⟨w, { t with drained := false }, restarts, .running left behavior.resume, h⟩ := by
  have hnot : ¬ (w.isTerminating id &&
      (Node.around id : Surroundings (Node μ ε) μ).isEmpty w) = true := by
    rw [hw.isTerminating_eq, hw.isEmpty_eq, Bool.and_eq_true, List.isEmpty_iff]
    exact fun hboth => hgo hboth.1 hboth.2
  exact if_neg hnot

/-- An agent that is asked to end and has an empty mailbox has its last word. -/
theorem advance_resuming_stop (hw : w.Seated id v) (hasked : v.isTerminating = true)
    (hq : v.queue = []) :
    (resident behavior policy id quantum).advance ⟨w, t, restarts, .resuming (left + 1), h⟩ =
      ⟨w, t, restarts, .stopping behavior.onStop, h ++ [.lastWord]⟩ := by
  have hboth : (w.isTerminating id &&
      (Node.around id : Surroundings (Node μ ε) μ).isEmpty w) = true := by
    rw [hw.isTerminating_eq, hw.isEmpty_eq, hasked, hq]
    rfl
  exact if_pos hboth

/-- A receive without budget hands out nothing and notes that the budget is gone. -/
theorem receive_exhausted {point : Point (Node μ ε) μ}
    {next : Option (Envelope μ) → Point (Node μ ε) μ} (hb : t.budget = 0) :
    (resident behavior policy id quantum).receive ⟨w, t, restarts, point, h⟩ next =
      ⟨w, { t with exhausted := true }, restarts, next none, h⟩ :=
  if_pos hb

/-- A receive from an empty mailbox notes that the mailbox was drained. -/
theorem receive_empty {point : Point (Node μ ε) μ} (hw : w.Seated id v)
    {next : Option (Envelope μ) → Point (Node μ ε) μ} (hb : t.budget ≠ 0) (hq : v.queue = []) :
    ∃ w', w'.Seated id v ∧
      (resident behavior policy id quantum).receive ⟨w, t, restarts, point, h⟩ next =
        ⟨w', { t with drained := true }, restarts, next none, h⟩ := by
  obtain ⟨hnone, hseated⟩ := hw.receive_nil hq
  refine ⟨(w.receive id).1, hseated, (if_neg hb).trans ?_⟩
  have hpair :
      (resident behavior policy id quantum).around.dequeue w = ((w.receive id).1, none) :=
    Prod.ext rfl hnone
  rw [hpair]

/-- A receive within the budget hands out the head of the mailbox. -/
theorem receive_head {point : Point (Node μ ε) μ} (hw : w.Seated id v)
    {next : Option (Envelope μ) → Point (Node μ ε) μ} (hb : t.budget ≠ 0) {e : Envelope μ}
    {rest : List (Envelope μ)} (hq : v.queue = e :: rest) :
    ∃ w', w'.Seated id { v with queue := rest } ∧
      (resident behavior policy id quantum).receive ⟨w, t, restarts, point, h⟩ next =
        ⟨w', { t with budget := t.budget - 1, received := t.received + 1 }, restarts,
          next (some e), h ++ [.received e]⟩ := by
  obtain ⟨hsome, hseated⟩ := hw.receive_cons hq
  refine ⟨(w.receive id).1, hseated, (if_neg hb).trans ?_⟩
  have hpair :
      (resident behavior policy id quantum).around.dequeue w = ((w.receive id).1, some e) :=
    Prod.ext rfl hsome
  rw [hpair]

/-- A receive of the running behaviour is a receive of the turn. -/
theorem advance_receive {next : Option (Envelope μ) → Program (Node μ ε) μ (Except String Step)} :
    (resident behavior policy id quantum).advance
        ⟨w, t, restarts, .running left (.receive next), h⟩ =
      (resident behavior policy id quantum).receive
        ⟨w, t, restarts, .running left (.receive next), h⟩ fun e => .running left (next e) :=
  rfl

/-- An agent that answers that it waits, and is not asked to end, goes on to wait. -/
theorem advance_answered (hw : w.Seated id v) (hasked : v.isTerminating = false) :
    (resident behavior policy id quantum).advance ⟨w, t, restarts, .answered left (.ok .wait), h⟩ =
      ⟨w, t, restarts, .waiting left, h⟩ := by
  have hnot : ¬ w.isTerminating id = true := by simp [hw.isTerminating_eq, hasked]
  exact if_neg hnot

/-- An agent that answers that it waits, and is asked to end, has its last word at once. -/
theorem advance_answered_stop (hw : w.Seated id v) (hasked : v.isTerminating = true) :
    (resident behavior policy id quantum).advance ⟨w, t, restarts, .answered left (.ok .wait), h⟩ =
      ⟨w, t, restarts, .stopping behavior.onStop, h ++ [.lastWord]⟩ := by
  have htrue : w.isTerminating id = true := by rw [hw.isTerminating_eq, hasked]
  exact if_pos htrue

/-- A waiting agent yields if its budget is gone and there is more to read. -/
theorem advance_waiting (hw : w.Seated id v) :
    (resident behavior policy id quantum).advance ⟨w, t, restarts, .waiting left, h⟩ =
      if t.exhausted = true ∧ v.queue ≠ [] then ⟨w, t, restarts, .ended .yield, h⟩
      else ⟨w, t, restarts, .enlisting left, h⟩ := by
  show (if (t.exhausted && !(Node.around id : Surroundings (Node μ ε) μ).isEmpty w) = true then _
    else _) = _
  rw [hw.isEmpty_eq]
  refine if_congr ?_ rfl rfl
  simp

/-- A registered receiver looks at the mailbox again if it had drained it. -/
theorem advance_enlisted (hw : w.Seated id v) :
    (resident behavior policy id quantum).advance ⟨w, t, restarts, .enlisted left, h⟩ =
      if t.drained = true ∧ v.queue ≠ [] then ⟨w, t, restarts, .resuming left, h⟩
      else ⟨w, t, restarts, .ended .wait, h⟩ := by
  show (if (t.drained && !(Node.around id : Surroundings (Node μ ε) μ).isEmpty w) = true then _
    else _) = _
  rw [hw.isEmpty_eq]
  refine if_congr ?_ rfl rfl
  simp

end Step

/-! ## Before anybody asks the agent to end -/

/-- The state of an agent that reads its mailbox out and was not asked to end. -/
structure Living (id : AgentId) (quantum : Nat) (c : Pace (Node μ ε) μ) (v : Standing μ) :
    Prop where
  seated : c.world.Seated id v
  isClosed : v.isClosed = false
  isTerminating : v.isTerminating = false
  isRegistered : v.isRegistered = true
  fit : Fit id c.books c.point
  budget_le : c.books.budget ≤ quantum
  /-- What was accepted was handed out or is still queued, in order. -/
  accounted : History.accepted c.history = History.received c.history ++ v.queue
  unsaid : History.Unsaid c.history

variable {behavior : Behavior (Node μ ε) μ} {policy : Policy} {id : AgentId} {quantum : Nat}

/-- Going on without touching the mailbox. -/
theorem Living.move {c : Pace (Node μ ε) μ} {v : Standing μ} (h : Living id quantum c v)
    {w : Node μ ε} {t : TurnBooks} {point : Point (Node μ ε) μ} (hw : w.Seated id v)
    (hfit : Fit id t point) (hb : t.budget ≤ quantum) :
    Living id quantum { c with world := w, books := t, point := point } v :=
  ⟨hw, h.isClosed, h.isTerminating, h.isRegistered, hfit, hb, h.accounted, h.unsaid⟩

/-- What others do leaves a living agent alive and its messages accounted for. -/
theorem Living.others [Transferable μ] {c c' : Pace (Node μ ε) μ} {v : Standing μ}
    (h : Living id quantum c v) (hothers : Others id c c') : ∃ v', Living id quantum c' v' := by
  cases hothers with
  | sent hseal hok =>
      obtain ⟨hopen, e', hseal', hseated⟩ := h.seated.send_ok hok
      obtain rfl := Except.ok.inj (hseal.symm.trans hseal')
      refine ⟨_, hseated, h.isClosed, h.isTerminating, h.isRegistered, h.fit, h.budget_le,
        ?_, ?_⟩
      · rw [History.accepted_snoc_accepted, History.received_snoc_accepted, h.accounted,
          h.seated.nextSeq_eq, List.append_assoc]
      · exact h.unsaid.append (History.unsaid_singleton rfl)
  | refused herror => exact ⟨v, h.move (h.seated.send_error herror) h.fit h.budget_le⟩
  | elsewhere helse => exact ⟨v, h.move (helse v h.seated) h.fit h.budget_le⟩

/-- An agent that drained its mailbox has budget left. -/
theorem Told.budget_pos {t : TurnBooks} (ht : Told t) (hd : t.drained = true) :
    0 < t.budget ∧ t.exhausted = false := by
  rcases ht with ⟨-, he, hb⟩ | ⟨hnot, -, -⟩
  · exact ⟨hb, he⟩
  · rw [hd] at hnot
    exact nomatch hnot

/-- One step of an agent that nobody asked to end leaves it alive, and its messages accounted for.
-/
theorem Living.advance {k : Nat} (hk : quantum < k) (hreads : Reads id k behavior.resume)
    (hquantum : 1 ≤ quantum) {c : Pace (Node μ ε) μ} {v : Standing μ} (h : Living id quantum c v) :
    ∃ v', Living id quantum ((resident behavior policy id quantum).advance c) v' := by
  obtain ⟨w, t, restarts, point, history⟩ := c
  have hw := h.seated
  have hb : t.budget ≤ quantum := h.budget_le
  -- on the point of the turn: each fits what the next step needs
  cases hpoint : h.fit with
  | away hne =>
      rw [advance_away hne]
      exact ⟨v, h.move hw (.resuming hquantum rfl) (Nat.le_refl _)⟩
  | @resuming left hpos he =>
      cases left with
      | zero => exact ⟨v, h.move hw (.away (by decide)) hb⟩
      | succ left =>
          rw [advance_resuming hw fun hasked => nomatch h.isTerminating.symm.trans hasked]
          exact ⟨v, h.move hw (.reading hreads (Nat.lt_of_le_of_lt hb hk) rfl he) hb⟩
  | @reading left k' p hp hk' hd he =>
      cases hp with
      | beyond => omega
      | change hf hnext => exact ⟨v, h.move (hf w v hw) (.reading (hnext _) hk' hd he) hb⟩
      | receive hnone hsome =>
          have hlt : t.budget < _ + 1 := hk'
          by_cases hzero : t.budget = 0
          · rw [advance_receive, receive_exhausted hzero]
            exact ⟨v, h.move hw (.told hnone (Or.inr ⟨hd, rfl, hzero⟩)) hb⟩
          · cases hq : v.queue with
            | nil =>
                obtain ⟨w', hw', heq⟩ := receive_empty hw hzero hq
                rw [advance_receive, heq]
                exact ⟨v, h.move hw' (.told hnone (Or.inl ⟨rfl, he, Nat.pos_of_ne_zero hzero⟩)) hb⟩
            | cons e rest =>
                obtain ⟨w', hw', heq⟩ := receive_head hw hzero hq
                rw [advance_receive, heq]
                refine ⟨_, hw', h.isClosed, h.isTerminating, h.isRegistered,
                  .reading (hsome e) (by show t.budget - 1 < _; omega) hd he,
                  Nat.le_trans (Nat.sub_le _ _) hb, ?_, ?_⟩
                · have haccounted :
                      History.accepted history = History.received history ++ v.queue :=
                    h.accounted
                  rw [History.accepted_snoc_received, History.received_snoc_received,
                    haccounted, hq, List.append_assoc]
                  rfl
                · exact h.unsaid.append (History.unsaid_singleton rfl)
  | @told left p hp ht =>
      cases hp with
      | answer => exact ⟨v, h.move hw (.answered ht) hb⟩
      | change hf hnext => exact ⟨v, h.move (hf w v hw) (.told (hnext _) ht) hb⟩
  | answered ht =>
      rw [advance_answered hw h.isTerminating]
      exact ⟨v, h.move hw (.waiting ht) hb⟩
  | waiting ht =>
      rw [advance_waiting hw]
      split
      · exact ⟨v, h.move hw (.away (by decide)) hb⟩
      · exact ⟨v, h.move hw (.enlisting ht) hb⟩
  | enlisting ht => exact ⟨v, h.move hw.register (.enlisted ht) hb⟩
  | enlisted ht =>
      rw [advance_enlisted hw]
      split
      · next hagain =>
          obtain ⟨hpos, he⟩ := ht.budget_pos hagain.1
          exact ⟨v, h.move hw (.resuming hpos he) hb⟩
      · exact ⟨v, h.move hw (.away (by decide)) hb⟩

variable [Transferable μ]

/-- As long as nobody asks the agent to end, it reads what was accepted, in order. -/
theorem Living.reaches {k : Nat} (hk : quantum < k) (hreads : Reads id k behavior.resume)
    (hquantum : 1 ≤ quantum) {c c' : Pace (Node μ ε) μ} {v : Standing μ}
    (h : Living id quantum c v)
    (hruns : (resident behavior policy id quantum).Runs (Others id) c c') :
    ∃ v', Living id quantum c' v' := by
  induction hruns with
  | refl => exact ⟨v, h⟩
  | tail _ hlast ih =>
      obtain ⟨v', h'⟩ := ih
      rcases hlast with hothers | hown
      · exact h'.others hothers
      · exact hown ▸ h'.advance hk hreads hquantum

/-! ## After it was asked to end -/

/-- To an agent whose mailbox is closed the others can do nothing. -/
theorem others_closed {c c' : Pace (Node μ ε) μ} {v : Standing μ} (hw : c.world.Seated id v)
    (hclosed : v.isClosed = true) (h : Resident.Interfering (Others id) c c') :
    ∃ w, c' = { c with world := w } ∧ w.Seated id v := by
  induction h with
  | refl => exact ⟨c.world, rfl, hw⟩
  | tail _ hlast ih =>
      obtain ⟨w, rfl, hw'⟩ := ih
      cases hlast with
      | sent hseal hok =>
          obtain ⟨hopen, -⟩ := hw'.send_ok hok
          rw [hclosed] at hopen
          exact nomatch hopen
      | refused herror => exact ⟨_, rfl, hw'.send_error herror⟩
      | elsewhere helse => exact ⟨_, rfl, helse v hw'⟩

/-- What follows from the next step of an agent whose mailbox is closed. -/
theorem inevitable_next {P : Pace (Node μ ε) μ → Prop} {c : Pace (Node μ ε) μ} {v : Standing μ}
    (hw : c.world.Seated id v) (hclosed : v.isClosed = true)
    (h : ∀ w, w.Seated id v → (resident behavior policy id quantum).Inevitable (Others id) P
      ((resident behavior policy id quantum).advance { c with world := w })) :
    (resident behavior policy id quantum).Inevitable (Others id) P c := by
  refine .later fun c' hc' => ?_
  obtain ⟨w, rfl, hw'⟩ := others_closed hw hclosed hc'
  exact h w hw'

/-- The agent is about to say its last word, having come so far. -/
def AtLastWord (behavior : Behavior (Node μ ε) μ) (id : AgentId) (before : List (Event μ))
    (c : Pace (Node μ ε) μ) : Prop :=
  c.point = .stopping behavior.onStop ∧ c.history = before ++ [.lastWord] ∧
    ∃ v, c.world.Seated id v ∧ v.isClosed = true

section LastWord

variable {w : Node μ ε} {v : Standing μ} {t : TurnBooks} {restarts left : Nat} {h : List (Event μ)}
  (hw : w.Seated id v) (hasked : v.isTerminating = true) (hclosed : v.isClosed = true)

include hw hasked hclosed

/-- An agent asked to end that answers that it waits has its last word next. -/
theorem inevitable_answered :
    (resident behavior policy id quantum).Inevitable (Others id) (AtLastWord behavior id h)
      ⟨w, t, restarts, .answered left (.ok .wait), h⟩ := by
  refine inevitable_next hw hclosed fun w' hw' => ?_
  rw [advance_answered_stop hw' hasked]
  exact .now ⟨rfl, rfl, v, hw', hclosed⟩

/-- An agent asked to end whose program can only answer that it waits has its last word next. -/
theorem inevitable_waits {p : Program (Node μ ε) μ (Except String Step)} (hp : Waits id p) :
    (resident behavior policy id quantum).Inevitable (Others id) (AtLastWord behavior id h)
      ⟨w, t, restarts, .running left p, h⟩ := by
  induction hp generalizing w with
  | answer =>
      refine inevitable_next hw hclosed fun w' hw' => ?_
      exact inevitable_answered hw' hasked hclosed
  | change hf hnext ih =>
      refine inevitable_next hw hclosed fun w' hw' => ?_
      exact ih _ (hf w' v hw')

omit hw hasked hclosed in
/-- A reading agent takes out of a closed mailbox what its budget allows. -/
theorem inevitable_reads {k : Nat} {p : Program (Node μ ε) μ (Except String Step)}
    (hp : Reads id k p) (hk : t.budget < k) (hw : w.Seated id v) (hasked : v.isTerminating = true)
    (hclosed : v.isClosed = true) :
    (resident behavior policy id quantum).Inevitable (Others id)
      (AtLastWord behavior id (h ++ (v.queue.take t.budget).map .received))
      ⟨w, t, restarts, .running left p, h⟩ := by
  -- on the behaviour: each receive takes the head of the queue and one from the budget
  induction hp generalizing w v t h with
  | beyond => omega
  | change hf hnext ih =>
      refine inevitable_next hw hclosed fun w' hw' => ?_
      exact ih _ hk (hf w' v hw') hasked hclosed
  | receive hnone hsome ih =>
      refine inevitable_next hw hclosed fun w' hw' => ?_
      by_cases hzero : t.budget = 0
      · rw [advance_receive, receive_exhausted hzero, hzero, List.take_zero, List.map_nil,
          List.append_nil]
        exact inevitable_waits hw' hasked hclosed hnone
      · cases hq : v.queue with
        | nil =>
            obtain ⟨w'', hw'', heq⟩ := receive_empty hw' hzero hq
            rw [advance_receive, heq, List.take_nil, List.map_nil, List.append_nil]
            exact inevitable_waits hw'' hasked hclosed hnone
        | cons e rest =>
            obtain ⟨w'', hw'', heq⟩ := receive_head hw' hzero hq
            have htake : h ++ ((e :: rest).take t.budget).map Event.received =
                (h ++ [.received e]) ++ (rest.take (t.budget - 1)).map .received := by
              obtain ⟨left, hleft⟩ := Nat.exists_eq_succ_of_ne_zero hzero
              rw [hleft, List.take_succ_cons, List.append_assoc]
              rfl
            rw [advance_receive, heq, htake]
            refine ih e (t := { t with budget := t.budget - 1, received := t.received + 1 })
              (h := h ++ [.received e]) ?_ hw'' hasked hclosed
            show t.budget - 1 < _
            omega

variable {k : Nat} (hk : quantum < k) (hreads : Reads id k behavior.resume)

include hk hreads

/-- A resumed agent that is asked to end reads what its budget allows and has its last word. -/
theorem inevitable_resuming (hb : t.budget ≤ quantum) :
    (resident behavior policy id quantum).Inevitable (Others id)
      (AtLastWord behavior id (h ++ (v.queue.take t.budget).map .received))
      ⟨w, t, restarts, .resuming (left + 1), h⟩ := by
  refine inevitable_next hw hclosed fun w' hw' => ?_
  cases hq : v.queue with
  | nil =>
      rw [advance_resuming_stop hw' hasked hq, List.take_nil, List.map_nil, List.append_nil]
      exact .now ⟨rfl, rfl, v, hw', hclosed⟩
  | cons e rest =>
      rw [advance_resuming hw' fun _ => by rw [hq]; exact List.cons_ne_nil e rest, ← hq]
      exact inevitable_reads (t := { t with drained := false }) hreads (Nat.lt_of_le_of_lt hb hk)
        hw' hasked hclosed

variable (hquantum : 1 ≤ quantum)

include hquantum

/-- In its next turn the agent takes out what the quantum allows. -/
theorem inevitable_away {ending : TurnEnd} (hne : ending ≠ .done) :
    (resident behavior policy id quantum).Inevitable (Others id)
      (AtLastWord behavior id (h ++ (v.queue.take quantum).map .received))
      ⟨w, t, restarts, .ended ending, h⟩ := by
  refine inevitable_next hw hclosed fun w' hw' => ?_
  rw [advance_away hne]
  obtain ⟨left, rfl⟩ : ∃ left, quantum = left + 1 := ⟨quantum - 1, by omega⟩
  exact inevitable_resuming (t := .opened (left + 1)) hw' hasked hclosed hk hreads (Nat.le_refl _)

/-- A registered receiver that is asked to end reads what this turn or the next allows. -/
theorem inevitable_enlisted (hb : t.budget ≤ quantum) :
    (resident behavior policy id quantum).Inevitable (Others id)
      (AtLastWord behavior id (h ++ (v.queue.take
        (if t.drained && left != 0 then t.budget else quantum)).map .received))
      ⟨w, t, restarts, .enlisted left, h⟩ := by
  refine inevitable_next hw hclosed fun w' hw' => ?_
  rw [advance_enlisted hw']
  by_cases hagain : t.drained = true ∧ v.queue ≠ []
  · rw [if_pos hagain]
    cases left with
    | zero =>
        -- no resume is left in this turn
        refine inevitable_next hw' hclosed fun w'' hw'' => ?_
        simp only [bne_self_eq_false, Bool.and_false, Bool.false_eq_true, if_false]
        exact inevitable_away hw'' hasked hclosed hk hreads hquantum (by decide)
    | succ left =>
        rw [hagain.1]
        exact inevitable_resuming hw' hasked hclosed hk hreads hb
  · rw [if_neg hagain]
    have htake : v.queue.take (if t.drained && left != 0 then t.budget else quantum) =
        v.queue.take quantum := by
      by_cases hd : t.drained = true
      · have hq : v.queue = [] := Decidable.of_not_not fun hq => hagain ⟨hd, hq⟩
        rw [hq, List.take_nil, List.take_nil]
      · rw [Bool.not_eq_true] at hd
        rw [hd]
        rfl
    rw [htake]
    exact inevitable_away hw' hasked hclosed hk hreads hquantum (by decide)

/-- An agent that is asked to end still reads what its allowance covers. -/
theorem inevitable_lastWord {point : Point (Node μ ε) μ} (hfit : Fit id t point)
    (hb : t.budget ≤ quantum) :
    (resident behavior policy id quantum).Inevitable (Others id)
      (AtLastWord behavior id
        (h ++ (v.queue.take (allowance quantum t point)).map .received))
      ⟨w, t, restarts, point, h⟩ := by
  -- what may still be read is decided by the point at which the request arrives
  cases hfit with
  | away hne => exact inevitable_away hw hasked hclosed hk hreads hquantum hne
  | @resuming left hpos he =>
      cases left with
      | zero =>
          refine inevitable_next hw hclosed fun w' hw' => ?_
          exact inevitable_away hw' hasked hclosed hk hreads hquantum (by decide)
      | succ left => exact inevitable_resuming hw hasked hclosed hk hreads hb
  | reading hp hk' hd he =>
      simp only [allowance, hd, he]
      exact inevitable_reads hp hk' hw hasked hclosed
  | told hp ht =>
      have hzero : (t.drained || t.exhausted) = true := by
        rcases ht with ⟨hd, -, -⟩ | ⟨-, he, -⟩
        · rw [hd, Bool.true_or]
        · rw [he, Bool.or_true]
      simp only [allowance, hzero, if_true, List.take_zero, List.map_nil, List.append_nil]
      exact inevitable_waits hw hasked hclosed hp
  | answered ht =>
      simp only [allowance, List.take_zero, List.map_nil, List.append_nil]
      exact inevitable_answered hw hasked hclosed
  | waiting ht =>
      refine inevitable_next hw hclosed fun w' hw' => ?_
      rw [advance_waiting hw']
      by_cases hmore : t.exhausted = true ∧ v.queue ≠ []
      · -- out of budget, so the rest is read in the next turn
        have hd : t.drained = false := by
          rcases ht with ⟨-, he, -⟩ | ⟨hd, -, -⟩
          · exact nomatch he.symm.trans hmore.1
          · exact hd
        rw [if_pos hmore]
        simp only [allowance, hd, Bool.false_and, Bool.false_eq_true, if_false]
        exact inevitable_away hw' hasked hclosed hk hreads hquantum (by decide)
      · rw [if_neg hmore]
        refine inevitable_next hw' hclosed fun w'' hw'' => ?_
        exact inevitable_enlisted hw''.register hasked hclosed hk hreads hquantum hb
  | enlisting ht =>
      refine inevitable_next hw hclosed fun w' hw' => ?_
      exact inevitable_enlisted hw'.register hasked hclosed hk hreads hquantum hb
  | enlisted ht => exact inevitable_enlisted hw hasked hclosed hk hreads hquantum hb

end LastWord

/-- The program leaves the seat of an agent as it stands once its mailbox is closed. -/
inductive Keeps (id : AgentId) {α : Type} : Program (Node μ ε) μ α → Prop where
  | answer (x : α) : Keeps id (.answer x)
  | change {f : Node μ ε → Node μ ε} {next : Node μ ε → Program (Node μ ε) μ α}
      (hf : ∀ n v, v.isClosed = true → n.Seated id v → (f n).Seated id v)
      (hnext : ∀ n, Keeps id (next n)) : Keeps id (.change f next)
  | receive {next : Option (Envelope μ) → Program (Node μ ε) μ α}
      (hnext : ∀ e, Keeps id (next e)) : Keeps id (.receive next)

/-- The agent has left, having been given its last word when it had come so far. -/
structure Gone (id : AgentId) (before : List (Event μ)) (c : Pace (Node μ ε) μ) : Prop where
  point_eq : c.point = .ended .done
  history_eq : ∃ after, c.history = before ++ .lastWord :: after ∧ History.accepted after = []
  seated : ∃ v, c.world.Seated id v ∧ v.isClosed = true ∧ v.isRegistered = false

/-- From its last word on an agent accepts nothing more and is off the register in the end. -/
theorem inevitable_gone {p : Program (Node μ ε) μ (Except String Unit)} (hp : Keeps id p)
    {w : Node μ ε} {v : Standing μ} (hw : w.Seated id v) (hclosed : v.isClosed = true)
    {t : TurnBooks} {restarts : Nat} {before after : List (Event μ)}
    (hafter : History.accepted after = []) :
    (resident behavior policy id quantum).Inevitable (Others id) (Gone id before)
      ⟨w, t, restarts, .stopping p, before ++ .lastWord :: after⟩ := by
  -- on the last word: its receives may still empty the mailbox, which is closed
  induction hp generalizing w v t after with
  | answer x =>
      refine inevitable_next hw hclosed fun w' hw' => .now ⟨rfl, ⟨after ++ [.left], ?_, ?_⟩, ?_⟩
      · exact List.append_assoc _ _ _
      · rw [History.accepted_append, hafter]
        rfl
      · exact ⟨_, hw'.closeMailbox.deregister, rfl, rfl⟩
  | change hf hnext ih =>
      exact inevitable_next hw hclosed fun w' hw' => ih _ (hf w' v hclosed hw') hclosed hafter
  | @receive next hnext ih =>
      refine inevitable_next hw hclosed fun w' hw' => ?_
      show (resident behavior policy id quantum).Inevitable (Others id) (Gone id before)
        ((resident behavior policy id quantum).receive
          ⟨w', t, restarts, .stopping (.receive next), before ++ .lastWord :: after⟩
          fun e => .stopping (next e))
      by_cases hzero : t.budget = 0
      · rw [receive_exhausted hzero]
        exact ih none hw' hclosed hafter
      · cases hq : v.queue with
        | nil =>
            obtain ⟨w'', hw'', heq⟩ := receive_empty hw' hzero hq
            rw [heq]
            exact ih none hw'' hclosed hafter
        | cons e rest =>
            obtain ⟨w'', hw'', heq⟩ := receive_head hw' hzero hq
            have hmore : History.accepted (after ++ [.received e]) = [] := by
              rw [History.accepted_snoc_received, hafter]
            rw [heq, List.append_assoc, List.cons_append]
            exact ih (some e) hw'' hclosed hmore

/-! ## A node on its own -/

/-- Receives until nothing comes, so many times at most, and waits. -/
def reader : Nat → Program (Node μ ε) μ (Except String Step)
  | 0 => .answer (.ok .wait)
  | k + 1 => .receive fun
    | some _ => reader k
    | none => .answer (.ok .wait)

omit [Transferable μ] in
/-- The reader reads as often as it is told to. -/
theorem reads_reader (id : AgentId) (k : Nat) :
    Reads id k (reader k : Program (Node μ ε) μ (Except String Step)) := by
  induction k with
  | zero => exact Reads.beyond
  | succ k ih => exact Reads.receive Waits.answer fun _ => ih

/-- An agent that reads its mailbox out, and in its last word says how much it leaves. -/
def reading (id : AgentId) (k : Nat) : Behavior (Node μ Nat) μ where
  resume := reader k
  onStop := .change (fun n => n.alterApp fun _ => n.pending id) fun _ => .answer (.ok ())
  onRestart n := (n, .ok ())

omit [Transferable μ] in
/-- Its last word keeps the mailbox closed. -/
theorem keeps_reading (id : AgentId) (k : Nat) :
    Keeps id (reading id k : Behavior (Node μ Nat) μ).onStop :=
  .change (fun _ _ _ h => h.congr rfl) fun _ => .answer _

/-- An agent before its first turn. -/
def newcomer (n : Node μ ε) (quantum : Nat) : Pace (Node μ ε) μ :=
  ⟨n, .opened quantum, 0, .ended .yield, []⟩

/-- A node with one worker that has just been started. -/
def started (quantum : Nat) : Node Payload Nat :=
  (ofSettings { scheduler := { quantum } } .stopOnFailure 1 ⟨0⟩ 0).start.1

/-- The only agent of a node, before its first turn, with so many messages written to it. -/
def addressed (quantum : Nat) : Nat → Pace (Node Payload Nat) Payload
  | 0 => newcomer ((started quantum).spawn {}).1 quantum
  | count + 1 =>
    let c := addressed quantum count
    let e : Envelope Payload := ⟨.plain, .isolated, none, c.world.nextSeq ⟨1⟩⟩
    { c with
      world := (c.world.send ⟨1⟩ .plain none).1
      history := c.history ++ [.accepted e] }

/-! ## The whole life -/

omit [Transferable μ] in
theorem living_newcomer {n : Node μ ε} {seq : Nat}
    (hn : n.Seated id ⟨[], seq, false, false, true⟩) :
    Living id quantum (newcomer n quantum) ⟨[], seq, false, false, true⟩ :=
  ⟨hn, rfl, rfl, rfl, .away (by decide), Nat.le_refl _, rfl, fun _ h => nomatch h⟩

omit [Transferable μ] in
/-- What the books of a whole life say about what was heard of what was accepted. -/
theorem Living.heard_of_gone {c c' : Pace (Node μ ε) μ} {v : Standing μ}
    (h : Living id quantum c v) {most : Nat}
    (hgone : Gone id (c.history ++ (v.queue.take most).map .received) c') :
    History.accepted c'.history = History.accepted c.history ∧
      History.heard c'.history = (History.accepted c.history).take
        ((History.received c.history).length + most) ∧
      (History.heard c'.history = History.accepted c'.history ↔ c.world.pending id ≤ most) := by
  obtain ⟨after, hhistory, hafter⟩ := hgone.history_eq
  have hunsaid := h.unsaid.append (History.unsaid_map_received (v.queue.take most))
  have haccepted : History.accepted c'.history = History.accepted c.history := by
    rw [hhistory, History.accepted_append, History.accepted_append, History.accepted_map_received,
      List.append_nil]
    exact (congrArg (_ ++ ·) hafter).trans (List.append_nil _)
  -- what was heard is what had been received and the part of the queue still allowed
  have hheard : History.heard c'.history = History.received c.history ++ v.queue.take most := by
    rw [hhistory, History.heard_append_lastWord hunsaid, History.received_append,
      History.received_map_received]
  refine ⟨haccepted, ?_, ?_⟩
  · rw [hheard, h.accounted, List.take_length_add_append]
  · rw [hheard, haccepted, h.accounted, List.append_cancel_left_eq, h.seated.pending_eq]
    constructor
    · intro htake
      rw [← htake, List.length_take]
      exact Nat.min_le_left _ _
    · exact List.take_of_length_le

/-- An agent that reads its mailbox until nothing comes, and then waits, is asked to end:
whatever the others do, it comes to its last word and leaves, and by then it has read
what was accepted as far as its allowance reached. That is everything if, and only if,
no more was queued than the allowance covers. -/
theorem heard_eq_accepted_iff {k : Nat} (hk : quantum < k) (hquantum : 1 ≤ quantum)
    (hreads : Reads id k behavior.resume) (hkeeps : Keeps id behavior.onStop) {n : Node μ ε}
    {options : SpawnOptions ε} (hspawn : (n.spawn options).2 = .ok id) {c : Pace (Node μ ε) μ}
    (hruns : (resident behavior policy id quantum).Runs (Others id)
      (newcomer (n.spawn options).1 quantum) c) :
    (resident behavior policy id quantum).Inevitable (Others id)
      (fun c' => c'.point = .ended .done ∧
        (∃ v, c'.world.Seated id v ∧ v.isClosed = true ∧ v.isRegistered = false) ∧
        History.accepted c'.history = History.accepted c.history ∧
        History.heard c'.history = (History.accepted c.history).take
          ((History.received c.history).length + allowance quantum c.books c.point) ∧
        (History.heard c'.history = History.accepted c'.history ↔
          c.world.pending id ≤ allowance quantum c.books c.point))
      { c with world := (c.world.terminate id).1 } := by
  obtain ⟨v, h⟩ := (living_newcomer (seated_spawn hspawn)).reaches hk hreads hquantum hruns
  have hasked := h.seated.terminate h.isRegistered h.isTerminating
  -- the last word comes, after as much of the queue as is still allowed
  have hword : (resident behavior policy id quantum).Inevitable (Others id)
      (AtLastWord behavior id
        (c.history ++ (v.queue.take (allowance quantum c.books c.point)).map .received))
      { c with world := (c.world.terminate id).1 } :=
    inevitable_lastWord hasked rfl rfl hk hreads hquantum h.fit h.budget_le
  -- and after it the end
  have hgone := hword.trans fun c' hc' => by
    obtain ⟨w', t', restarts', point', history'⟩ := c'
    obtain ⟨rfl, rfl, v', hw', hclosed⟩ := hc'
    exact inevitable_gone hkeeps hw' hclosed rfl
  exact hgone.mono fun c' hc' => ⟨hc'.point_eq, hc'.seated, h.heard_of_gone hc'⟩

/-- Of three messages it reads two under a quantum of two. -/
theorem heard_two_of_three :
    (resident (reading ⟨1⟩ 3) .stopOnFailure ⟨1⟩ 2).Inevitable (Others ⟨1⟩)
      (fun c => c.point = .ended .done ∧ (History.accepted c.history).length = 3 ∧
        (History.heard c.history).length = 2)
      { addressed 2 3 with world := ((addressed 2 3).world.terminate ⟨1⟩).1 } := by
  have hsent : ∀ count < 3, (resident (reading ⟨1⟩ 3) .stopOnFailure ⟨1⟩ 2).Runs (Others ⟨1⟩)
      (addressed 2 count) (addressed 2 (count + 1)) := by
    intro count hcount
    have hok : ((addressed 2 count).world.send ⟨1⟩ .plain none).2 = .ok .accepted := by
      obtain rfl | rfl | rfl : count = 0 ∨ count = 1 ∨ count = 2 := by omega
      all_goals rfl
    have hseal : Envelope.trySeal Payload.plain none = .ok ⟨.plain, .isolated, none, 0⟩ := rfl
    exact .single (Or.inl (Others.sent hseal hok))
  have hruns := ((hsent 0 (by decide)).trans (hsent 1 (by decide))).trans (hsent 2 (by decide))
  refine (heard_eq_accepted_iff (k := 3) (by decide) (by decide) (reads_reader ⟨1⟩ 3)
    (keeps_reading ⟨1⟩ 3) (n := started 2) rfl hruns).mono ?_
  rintro c ⟨hpoint, -, haccepted, hheard, -⟩
  refine ⟨hpoint, ?_, ?_⟩
  · rw [haccepted]
    rfl
  · rw [hheard, List.length_take]
    rfl

/-- Under a quantum of one an agent that was sent two messages and is asked to end leaves
with one of them unread. -/
theorem unread_of_two :
    let n := settle ⟨fun id => reading id 2, fun _ n => n⟩ 5
      ((addressed 1 2).world.terminate ⟨1⟩).1
    n.agentCount = 0 ∧ n.metrics.received = 1 ∧ n.app = 1 ∧ n.pending ⟨1⟩ = 1 := by
  decide

end Node

end Troupe
