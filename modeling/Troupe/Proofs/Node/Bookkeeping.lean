import Troupe.Proofs.Agent.Keeping
import Troupe.Proofs.Node.Accounts
import Troupe.Proofs.Node.Departure

/-!
# A node that keeps its books

Whatever a node does at somebody's request, from its first step to its last and with nobody in
between, is a run of the steps that are told apart in its accounts: what it owes to its counters
after a step it has paid when the request is answered. So it is with a whole turn of an agent, with
the rounds of workers, with the passing of time and with a stop. What holds of all runs of those
steps, however they mix, so holds of what the node does.

* `keepsBooks_send`, `keepsBooks_receive`, `keepsBooks_spawn`, `keepsBooks_work` — the operations
  of a node;
* `exists_run_operate` — whatever a node does in one go is a run of such steps;
* `agrees_run` — when nothing is in progress, the counters agree with the mailboxes and with the
  register.
-/

namespace Troupe

variable {μ ε : Type}

/-! ## What comes of steps -/

namespace Mailbox

variable {ω : Type}

/-- A mailbox and the calls in progress, without what came of earlier calls. -/
def Traffic.bare (s : Traffic ω μ) : Traffic ω μ := s.calls.traffic s.mailbox

/-- What has come of earlier calls does not matter for what happens next. -/
theorem Traffic.bare_next (s : Traffic ω μ) (action : Action ω μ) :
    (s.bare.next action).bare = (s.next action).bare := by
  obtain ⟨m, sends, receiver, closes, effects, history⟩ := s
  cases action with
  | callSend e | callClose => rfl
  | send index =>
      simp only [next, bare, Calls.traffic, calls]
      cases sends[index]? <;> rfl
  | close index =>
      simp only [next, bare, Calls.traffic, calls]
      cases closes[index]? <;> rfl
  | receive | callDequeue | callPoll w => cases receiver <;> rfl

end Mailbox

namespace Node

variable {n : Node μ ε} {id : AgentId} {seat : Seat μ ε}

theorem alterSeat_congr {f g : Seat μ ε → Seat μ ε}
    (h : ∀ seat, n.seat? id = some seat → f seat = g seat) :
    n.alterSeat id f = n.alterSeat id g := by
  rw [alterSeat, alterSeat, Table.modify_congr h]

theorem alterSeat_eq_self {f : Seat μ ε → Seat μ ε}
    (h : ∀ seat, n.seat? id = some seat → f seat = seat) : n.alterSeat id f = n := by
  rw [alterSeat, Table.modify_eq_self h]

theorem alterSeat_alterSeat (n : Node μ ε) (id : AgentId) (f g : Seat μ ε → Seat μ ε) :
    (n.alterSeat id f).alterSeat id g = n.alterSeat id fun seat => g (f seat) := by
  simp only [alterSeat, Table.modify_modify]

end Node

namespace Accounts

open Mailbox (Traffic Calls)

/-- One state of the accounts comes to another, and no agent is struck from the register. -/
def Leads : Accounts μ ε → Accounts μ ε → Prop :=
  Relation.ReflTransGen fun s s' => ∃ action, action.isStrike = false ∧ s.next action = s'

variable {s s' s'' : Accounts μ ε} {id : AgentId} {seat : Seat μ ε}

theorem Leads.refl (s : Accounts μ ε) : s.Leads s := Relation.ReflTransGen.refl

theorem Leads.trans (h : s.Leads s') (h' : s'.Leads s'') : s.Leads s'' :=
  Relation.ReflTransGen.trans h h'

theorem leads_next (s : Accounts μ ε) (action : Action μ ε) (h : action.isStrike = false) :
    s.Leads (s.next action) := .single ⟨action, h, rfl⟩

/-- A run keeps the accounts in order. -/
theorem Leads.sound (h : s.Leads s') (hs : s.Sound) : s'.Sound := by
  induction h with
  | refl => exact hs
  | tail _ hstep ih =>
      obtain ⟨action, -, rfl⟩ := hstep
      exact ih.next action

/-- What accounts lead to is reached by a list of actions, none of them a strike. -/
theorem Leads.exists_run (h : s.Leads s') :
    ∃ actions, s.run actions = s' ∧ ∀ action ∈ actions, action.isStrike = false := by
  induction h with
  | refl => exact ⟨[], rfl, List.forall_mem_nil _⟩
  | tail _ hstep ih =>
      obtain ⟨actions, hrun, hstrike⟩ := ih
      obtain ⟨last, hlast, rfl⟩ := hstep
      refine ⟨actions ++ [last], ?_, ?_⟩
      · rw [run_append, hrun]
        rfl
      · rw [List.forall_mem_append, List.forall_mem_singleton]
        exact ⟨hstrike, hlast⟩

/-- What the node counts nothing of. -/
theorem leads_aside (s : Accounts μ ε) {f : Node μ ε → Node μ ε} (h : s.node.aside f = f s.node) :
    s.Leads { s with node := f s.node } := by
  have hstep := s.leads_next (.aside f) rfl
  simpa only [next, h] using hstep

/-- An agent's header changes, or whom its next message wakes. -/
theorem leads_stir (s : Accounts μ ε) (hseat : s.node.seat? id = some seat)
    (f : Seat μ ε → Seat μ ε)
    (hf : ∃ header receiver,
      f seat = { seat with header, mailbox := { seat.mailbox with receiver } }) :
    s.Leads { s with node := s.node.alterSeat id f } := by
  obtain ⟨header, receiver, hf⟩ := hf
  have hstep := s.leads_next (.stir id header receiver) rfl
  have hsame : s.node.alterSeat id (fun seat =>
      { seat with header, mailbox := { seat.mailbox with receiver } }) =
        s.node.alterSeat id f := by
    refine Node.alterSeat_congr fun seat' hseat' => ?_
    obtain rfl := Option.some.inj (hseat.symm.trans hseat')
    exact hf.symm
  simpa only [next, hsame] using hstep

theorem leads_header (s : Accounts μ ε) (hseat : s.node.seat? id = some seat)
    (header : Header Task) :
    s.Leads { s with node := s.node.alterSeat id fun seat => { seat with header } } :=
  s.leads_stir hseat _ ⟨header, seat.mailbox.receiver, rfl⟩

/-- Waking an agent touches no account. -/
theorem leads_wake (s : Accounts μ ε) (id : AgentId) :
    s.Leads { s with node := s.node.wake id } := by
  unfold Node.wake
  cases hseat : s.node.seat? id with
  | none => exact .refl s
  | some seat =>
      have hwoken := s.leads_header hseat seat.header.wake.1
      dsimp only
      split
      · next task _ =>
          let queued (n : Node μ ε) : Node μ ε := { n with pool := n.pool.schedule task }
          exact hwoken.trans (leads_aside _ (f := queued) rfl)
      · exact hwoken

theorem owe_owe (due : Item → Nat) (items more : List Item) :
    owe (owe due items) more = owe due (items ++ more) := by
  funext item
  simp only [owe, List.count_append, Nat.add_assoc]

/-- What happens at a mailbox step by step. -/
theorem leads_mail (t : Traffic Waker μ) (actions : List (Traffic.Action Waker μ))
    (hseat : s.node.seat? id = some seat) (ht : (s.calls id).traffic seat.mailbox = t.bare) :
    ∃ tallies : List Mailbox.Tally,
      (∀ tally, (t.run actions).mailbox.totals.get tally =
        t.mailbox.totals.get tally + tallies.count tally) ∧
      s.Leads { s with
        node := s.node.alterSeat id fun seat => { seat with mailbox := (t.run actions).mailbox }
        calls := Function.update s.calls id (t.run actions).calls
        due := owe s.due (tallies.map Mailbox.Tally.item) } := by
  -- on the actions: each is one mailbox action of the accounts, and its tallies fall due
  induction actions generalizing s t seat with
  | nil =>
      have hcalls : s.calls id = t.calls := congrArg Traffic.calls ht
      have hmailbox : seat.mailbox = t.mailbox := congrArg Traffic.mailbox ht
      have hsame : (s.node.alterSeat id fun seat => { seat with mailbox := t.mailbox }) =
          s.node := by
        refine Node.alterSeat_eq_self fun seat' hseat' => ?_
        obtain rfl := Option.some.inj (hseat.symm.trans hseat')
        rw [← hmailbox]
      refine ⟨[], fun _ => rfl, ?_⟩
      show s.Leads { s with node := _, calls := _, due := _ }
      rw [show t.run [] = t from rfl, hsame, ← hcalls, Function.update_eq_self]
      exact .refl s
  | cons action rest ih =>
      have hmailbox := congrArg Traffic.mailbox (t.bare_next action)
      have hcalls := congrArg Traffic.calls (t.bare_next action)
      change (t.bare.next action).mailbox = (t.next action).mailbox at hmailbox
      change (t.bare.next action).calls = (t.next action).calls at hcalls
      let s' : Accounts μ ε := { s with
        node := s.node.alterSeat id fun seat => { seat with mailbox := (t.next action).mailbox }
        calls := Function.update s.calls id (t.next action).calls
        due := owe s.due ((t.bare.tallies action).map Mailbox.Tally.item) }
      have hfirst : s.Leads s' := by
        have hstep := s.leads_next (.mail id action) rfl
        simpa only [Accounts.next, hseat, mail, ht, hmailbox, hcalls] using hstep
      have hseat' := Node.seat?_alterSeat_self hseat
        fun seat => { seat with mailbox := (t.next action).mailbox }
      have hcalls' : (s'.calls id) = (t.next action).calls := Function.update_self _ _ _
      obtain ⟨tallies, htotals, hrest⟩ := ih (s := s') (t.next action) hseat' (by rw [hcalls']; rfl)
      refine ⟨t.bare.tallies action ++ tallies, fun tally => ?_, ?_⟩
      · have hfirst := t.bare.totals_next action tally
        rw [hmailbox] at hfirst
        show ((t.next action).run rest).mailbox.totals.get tally = _
        rw [htotals, hfirst, List.count_append, Nat.add_assoc]
        rfl
      · have hall := hfirst.trans hrest
        rw [show t.run (action :: rest) = (t.next action).run rest from rfl]
        simpa only [s', Node.alterSeat_alterSeat, Function.update_idem, owe_owe,
          ← List.map_append] using hall

/-- Nothing is in progress on a node, and these items are still to be counted. -/
def owing (n : Node μ ε) (items : List Item) : Accounts μ ε :=
  { idle n with due := owe (fun _ => 0) items }

/-- The order in which items are owed does not matter. -/
theorem owing_of_perm (n : Node μ ε) {items items' : List Item} (h : items.Perm items') :
    owing n items = owing n items' := by
  have hdue : owe (fun _ => 0) items = owe (fun _ => 0) items' := by
    funext item
    simp only [owe, h.count_eq]
  rw [owing, owing, hdue]

/-- One of the owed items is counted. -/
theorem leads_count (n : Node μ ε) (item : Item) (items : List Item) :
    (owing n (item :: items)).Leads
      (owing { n with metrics := n.metrics.count item } items) := by
  have hdue : (owing n (item :: items)).due item ≠ 0 := by
    simp [owing, owe]
  -- what was owed is what remains owed and the item counted
  have hless : Function.update (owing n (item :: items)).due item
      ((owing n (item :: items)).due item - 1) = owe (fun _ => 0) items := by
    funext other
    rw [Function.update_apply]
    split
    · next hsame => simp [owing, owe, hsame]
    · next hother => simp [owing, owe, List.count_cons_of_ne (Ne.symm hother)]
  have hstep := (owing n (item :: items)).leads_next (.count item) rfl
  rw [Accounts.next, if_neg hdue, hless] at hstep
  exact hstep

/-- The first items owed are all counted. -/
theorem leads_all (n : Node μ ε) (items more : List Item) :
    (owing n (items ++ more)).Leads
      (owing { n with metrics := items.foldl Metrics.count n.metrics } more) := by
  induction items generalizing n with
  | nil => exact .refl _
  | cons item rest ih => exact (leads_count n item (rest ++ more)).trans (ih _)

/-- What a node owes for the effects of an operation. -/
def toll (effects : List (Effect Waker)) : List Item :=
  (effects.filterMap Effect.tally?).map Mailbox.Tally.item

/-- Carrying out effects pays for them. -/
theorem leads_perform (n : Node μ ε) (owner : AgentId) (effects : List (Effect Waker)) :
    (owing n (toll effects)).Leads (idle (n.perform owner effects)) := by
  -- on the effects: waking counts nothing, a pressure event is counted as it is told
  induction effects generalizing n with
  | nil => exact .refl _
  | cons effect rest ih =>
      cases effect with
      | wake w =>
          cases w with
          | agent id => exact ((owing n (toll rest)).leads_wake id).trans (ih _)
          | outsider => exact ih n
      | pressure event =>
          have hcounted := leads_count n event.tally.item (toll rest)
          -- whatever the observer makes of the event
          have htold := fun app => (owing { n with metrics := n.metrics.count event.tally.item }
            (toll rest)).leads_aside (f := fun n => { n with app }) rfl
          cases event with
          | engaged length => exact (hcounted.trans (htold _)).trans (ih _)
          | cleared length => exact (hcounted.trans (htold _)).trans (ih _)

/-- A call at a mailbox from its first step to its last: the node counts what it is told, and
carries out the effects. -/
theorem leads_call (n : Node μ ε) (hseat : n.seat? id = some seat)
    {actions : List (Traffic.Action Waker μ)} {m : Mailbox Waker μ} {told : List Mailbox.Tally}
    {effects : List (Effect Waker)} {metrics : Metrics}
    (hrun : ((({} : Calls Waker μ).traffic seat.mailbox).run actions).bare =
      ({} : Calls Waker μ).traffic m)
    (htold : ∀ tally, m.totals.get tally = seat.mailbox.totals.get tally +
      (told ++ effects.filterMap Effect.tally?).count tally)
    (hmetrics : (told.map Mailbox.Tally.item).foldl Metrics.count n.metrics = metrics) :
    (idle n).Leads (idle ({ n.alterSeat id fun seat => { seat with mailbox := m } with
      metrics }.perform id effects)) := by
  let stored := n.alterSeat id fun seat => { seat with mailbox := m }
  obtain ⟨tallies, htotals, hleads⟩ := leads_mail (s := idle n)
    (({} : Calls Waker μ).traffic seat.mailbox) actions hseat rfl
  have hmailbox := congrArg Traffic.mailbox hrun
  have hcalls := congrArg Traffic.calls hrun
  change ((({} : Calls Waker μ).traffic seat.mailbox).run actions).mailbox = m at hmailbox
  change ((({} : Calls Waker μ).traffic seat.mailbox).run actions).calls = {} at hcalls
  have hover : Function.update (idle n).calls id {} = (idle n).calls :=
    Function.update_eq_self id _
  rw [hmailbox, hcalls, hover] at hleads
  -- what the mailbox tallied is what the caller reports together with what the effects carry
  have hperm : tallies.Perm (told ++ effects.filterMap Effect.tally?) := by
    refine List.perm_iff_count.mpr fun tally => ?_
    have hbefore := htotals tally
    rw [hmailbox, htold tally] at hbefore
    exact (Nat.add_left_cancel hbefore).symm
  have hmailed : (idle n).Leads (owing stored (tallies.map Mailbox.Tally.item)) := hleads
  rw [owing_of_perm _ (hperm.map Mailbox.Tally.item), List.map_append] at hmailed
  have hcounted := leads_all stored (told.map Mailbox.Tally.item) (toll effects)
  rw [show stored.metrics = n.metrics from rfl, hmetrics] at hcounted
  exact (hmailed.trans hcounted).trans (leads_perform _ id effects)

end Accounts

/-! ## The operations of a node -/

namespace Node

open Accounts (idle owing toll)

open Mailbox (Calls Traffic)

/-- One node becomes another and keeps its books, if they were right so far: nothing is in
progress before and after. -/
def KeepsBooks (n n' : Node μ ε) : Prop := (idle n).Sound → (idle n).Leads (idle n')

variable {n n' n'' : Node μ ε} {id : AgentId} {seat : Seat μ ε}

theorem KeepsBooks.refl (n : Node μ ε) : n.KeepsBooks n := fun _ => .refl _

theorem KeepsBooks.trans (h : n.KeepsBooks n') (h' : n'.KeepsBooks n'') : n.KeepsBooks n'' := by
  intro hs
  have hfirst := h hs
  exact hfirst.trans (h' (hfirst.sound hs))

/-- One node becomes another by steps that its accounts know, strikes from the register among
them. -/
def RunsTo (n n' : Node μ ε) : Prop := (idle n).Sound → ∃ actions, (idle n).run actions = idle n'

/-- What keeps the books is a run of the accounts. -/
theorem KeepsBooks.runsTo (h : n.KeepsBooks n') : n.RunsTo n' := by
  intro hs
  obtain ⟨actions, hrun, -⟩ := (h hs).exists_run
  exact ⟨actions, hrun⟩

/-- Runs of the accounts follow each other. -/
theorem RunsTo.trans (h : n.RunsTo n') (h' : n'.RunsTo n'') : n.RunsTo n'' := by
  intro hs
  obtain ⟨actions, hrun⟩ := h hs
  obtain ⟨more, hmore⟩ := h' (hrun ▸ hs.run actions)
  refine ⟨actions ++ more, ?_⟩
  rw [Accounts.run_append, hrun, hmore]

theorem KeepsBooks.of_leads (h : (idle n).Leads (idle n')) : n.KeepsBooks n' := fun _ => h

/-- What the node counts nothing of. -/
theorem keepsBooks_aside {f : Node μ ε → Node μ ε} (h : n.aside f = f n) : n.KeepsBooks (f n) :=
  .of_leads ((idle n).leads_aside h)

theorem keepsBooks_header (hseat : n.seat? id = some seat) (header : Header Task) :
    n.KeepsBooks (n.alterSeat id fun seat => { seat with header }) :=
  .of_leads ((idle n).leads_header hseat header)

theorem keepsBooks_wake (n : Node μ ε) (id : AgentId) : n.KeepsBooks (n.wake id) :=
  .of_leads ((idle n).leads_wake id)

/-- Closing a mailbox keeps the books: it counts nothing. -/
theorem keepsBooks_closeMailbox (n : Node μ ε) (id : AgentId) :
    n.KeepsBooks (n.closeMailbox id) := by
  unfold closeMailbox
  cases hseat : n.seat? id with
  | none => exact .refl n
  | some seat =>
      have halone := congrArg Traffic.bare (({} : Calls Waker μ).traffic seat.mailbox).close_alone
      have htold : ∀ tally, seat.mailbox.close.state.totals.get tally =
          seat.mailbox.totals.get tally +
            ([] ++ seat.mailbox.close.effects.filterMap Effect.tally?).count tally := by
        intro tally
        simp [Mailbox.close, Mailbox.wake]
      have hcall := Accounts.leads_call n hseat halone htold rfl
      exact .of_leads hcall

/-- Receiving keeps the books: a message taken out is counted as received. -/
theorem keepsBooks_receive (n : Node μ ε) (id : AgentId) : n.KeepsBooks (n.receive id).1 := by
  unfold receive
  cases hseat : n.seat? id with
  | none => exact .refl n
  | some seat =>
      obtain ⟨steps, halone⟩ := (({} : Calls Waker μ).traffic seat.mailbox).dequeue_alone rfl
      refine .of_leads (Accounts.leads_call n hseat (congrArg Traffic.bare halone)
        seat.mailbox.totals_dequeue ?_)
      cases seat.mailbox.dequeue.answer <;> rfl

/-- Sending keeps the books: what the mailbox accepts or turns away is counted once. -/
theorem keepsBooks_send [Transferable μ] (n : Node μ ε) (target : AgentId) (message : μ)
    (sender : Option AgentId) : n.KeepsBooks (n.send target message sender).1 := by
  unfold send
  cases Envelope.trySeal message sender with
  | error m => exact .refl n
  | ok e =>
      dsimp only
      cases hseat : n.seat? target with
      | none => exact .refl n
      | some seat =>
          intro hs
          -- between the node's operations no call at the mailbox is under way
          have hsettled := (hs.settled_seat rfl hseat).1
          obtain ⟨steps, halone⟩ := (({} : Calls Waker μ).traffic seat.mailbox).enqueue_alone e
          refine Accounts.leads_call n hseat (congrArg Traffic.bare halone)
            (Mailbox.totals_enqueue hsettled e) ?_
          show _ = countSend n.metrics (seat.mailbox.enqueue e).answer
          cases (seat.mailbox.enqueue e).answer with
          | ok status => rfl
          | error refusal => cases refusal <;> rfl

/-- Registering a receiver keeps the books. -/
theorem keepsBooks_register (n : Node μ ε) (id : AgentId) :
    n.KeepsBooks ((Node.around id : Surroundings (Node μ ε) μ).register n) := by
  cases hseat : n.seat? id with
  | none =>
      have hsame : (Node.around id : Surroundings (Node μ ε) μ).register n = n :=
        alterSeat_of_none hseat _
      rw [hsame]
      exact .refl n
  | some seat =>
      exact .of_leads ((idle n).leads_stir hseat _ ⟨seat.header, some (.agent id), rfl⟩)

/-- Leaving the register keeps the books: the termination is counted with it. -/
theorem keepsBooks_deregister (n : Node μ ε) (id : AgentId) : n.KeepsBooks (n.deregister id) := by
  unfold deregister
  cases hseat : n.seat? id with
  | none => exact .refl n
  | some seat =>
      -- a second departure finds the seat unregistered and counts nothing
      by_cases hregistered : seat.isRegistered = true
      · have hleft := (idle n).leads_next (.leave id) rfl
        have hnode : (idle n).node.seat? id = some seat := hseat
        simp only [Accounts.next, hnode, if_pos hregistered] at hleft
        have hcounted := Accounts.leads_count
          (n.alterSeat id fun seat => { seat with isRegistered := false }) .terminated []
        simp only [if_pos hregistered]
        exact .of_leads (hleft.trans hcounted)
      · simp only [if_neg hregistered]
        exact .refl n

theorem keepsBooks_complete (n : Node μ ε) (id : AgentId) :
    n.KeepsBooks ((Node.around id : Surroundings (Node μ ε) μ).complete n) :=
  (n.keepsBooks_closeMailbox id).trans (keepsBooks_deregister _ id)

/-- Spawning keeps the books: the agent is enrolled before it is counted. -/
theorem keepsBooks_spawn (n : Node μ ε) (options : SpawnOptions ε) :
    n.KeepsBooks (n.spawn options).1 := by
  rw [spawn_eq]
  cases hvet : n.vet options with
  | error why => exact .refl n
  | ok fit =>
      obtain ⟨marks, capability⟩ := fit
      -- the spawn in its two steps, the look and the entry
      let looking : Accounts μ ε := { idle n with spawns := [.looking options] }
      let enrolling : Accounts μ ε :=
        { idle n with spawns := [.enrolling options marks capability] }
      let enrolled : Node μ ε :=
        { (n.enroll (.ofMarks marks) capability options).1 with metrics := n.metrics }
      have hcalled : (idle n).Leads looking := (idle n).leads_next (.callSpawn options) rfl
      have hlooked : looking.Leads enrolling := by
        have hstep := looking.leads_next (.spawn 0) rfl
        have hvet' : looking.node.vet options = .ok (marks, capability) := hvet
        have hnext : looking.next (.spawn 0) = enrolling := by
          show looking.spawn 0 (.looking options) = enrolling
          simp only [Accounts.spawn, hvet']
          rfl
        rwa [hnext] at hstep
      have henrolled : enrolling.Leads (owing enrolled [.spawned]) :=
        enrolling.leads_next (.spawn 0) rfl
      have hcounted := Accounts.leads_count enrolled .spawned []
      exact .of_leads (((hcalled.trans hlooked).trans henrolled).trans hcounted)

/-- Asking an agent to terminate keeps the books. -/
theorem keepsBooks_terminate (n : Node μ ε) (id : AgentId) : n.KeepsBooks (n.terminate id).1 := by
  unfold terminate
  cases hseat : n.seat? id with
  | none => exact .refl n
  | some seat =>
      have hasked := keepsBooks_header hseat seat.header.requestEnd.1
      dsimp only
      split
      · exact .refl n
      · split
        · exact (hasked.trans (keepsBooks_closeMailbox _ id)).trans (keepsBooks_wake _ id)
        · exact hasked

/-! ## Turns and rounds -/

/-- Acting on somebody's behalf. -/
theorem keepsBooks_onBehalfOf {f : Node μ ε → Node μ ε} (hf : ∀ n, KeepsBooks n (f n))
    (n : Node μ ε) (worker : Option Nat) : n.KeepsBooks (n.onBehalfOf worker f) := by
  let acting (n : Node μ ε) : Node μ ε := { n with pool := { n.pool with current := worker } }
  let restored (after : Node μ ε) : Node μ ε :=
    { after with pool := { after.pool with current := n.pool.current } }
  have hacting : n.KeepsBooks (acting n) := keepsBooks_aside (f := acting) rfl
  exact (hacting.trans (hf (acting n))).trans (keepsBooks_aside (f := restored) rfl)

/-- Effects that only wake keep the books. -/
theorem keepsBooks_fireAll (n : Node μ ε) (effects : List (Effect Waker)) :
    n.KeepsBooks (n.fireAll effects) := by
  induction effects generalizing n with
  | nil => exact .refl n
  | cons effect rest ih =>
      cases effect with
      | wake w =>
          cases w with
          | agent id => exact (n.keepsBooks_wake id).trans (ih _)
          | outsider => exact ih n
      | pressure event => exact ih n

/-- Setting a timer keeps the books. -/
theorem keepsBooks_wakeAt (n : Node μ ε) (id : AgentId) (deadline : Instant) :
    n.KeepsBooks (n.wakeAt id deadline) := by
  let booked (n : Node μ ε) : Node μ ε :=
    { n with timer := (n.timer.register n.now deadline (.agent id)).state }
  have hbooked : n.KeepsBooks (booked n) := keepsBooks_aside (f := booked) rfl
  exact hbooked.trans (keepsBooks_fireAll _ _)

/-- Advancing the clock keeps the books. -/
theorem keepsBooks_advanceTo (n : Node μ ε) (t : Instant) : n.KeepsBooks (n.advanceTo t) := by
  let passed (n : Node μ ε) : Node μ ε := { n with now := t, timer := (n.timer.pass t).state }
  have hpassed : n.KeepsBooks (passed n) := keepsBooks_aside (f := passed) rfl
  have hfired := fun n' : Node μ ε => n'.keepsBooks_fireAll (n.timer.pass t).effects
  exact hpassed.trans (keepsBooks_onBehalfOf hfired (passed n) none)

section Host

variable {host : Host μ ε} (hhost : host.Within KeepsBooks)

include hhost

/-- Settling a task after its turn keeps the books, however the turn ended. -/
theorem keepsBooks_settleTask (n : Node μ ε) (index : Nat) (task : Task) (ending : TurnEnd) :
    n.KeepsBooks (n.settleTask host index task ending) := by
  have hdrop : ∀ n : Node μ ε, n.KeepsBooks (n.dropTask host task) := hhost.dropped task.agent
  have hrequeue : ∀ (n : Node μ ε) (task : Task),
      n.KeepsBooks { n with pool := n.pool.requeue index task } := fun n task =>
    keepsBooks_aside (f := fun n => { n with pool := n.pool.requeue index task }) rfl
  -- the header is settled first, then the task is put back, parked or dropped
  cases ending with
  | yield =>
      simp only [settleTask]
      cases hseat : n.seat? task.agent with
      | none => exact hdrop n
      | some seat =>
          have hmoved := keepsBooks_header hseat seat.header.reschedule.1
          dsimp only
          split
          · exact hmoved.trans (hrequeue _ task)
          · exact hmoved.trans (hdrop _)
  | wait =>
      simp only [settleTask]
      cases hseat : n.seat? task.agent with
      | none => exact hdrop n
      | some seat =>
          have hmoved := keepsBooks_header hseat (seat.header.suspend task).1
          dsimp only
          split
          · exact hmoved
          · next task' _ => exact hmoved.trans (hrequeue _ task')
          · next task' _ => exact hmoved.trans (hhost.dropped task'.agent _)
  | done =>
      let forgotten (n : Node μ ε) : Node μ ε :=
        { n with profiles := n.profiles.erase task.agent }
      simp only [settleTask]
      cases hseat : n.seat? task.agent with
      | none =>
          have hforgotten : n.KeepsBooks (forgotten n) := keepsBooks_aside (f := forgotten) rfl
          exact hforgotten.trans (hdrop _)
      | some seat =>
          have hfinished := keepsBooks_header hseat seat.header.finish.1
          exact (hfinished.trans (keepsBooks_aside (f := forgotten) rfl)).trans (hdrop _)

/-- What an agent does in its turn keeps the books if what it does itself does. -/
theorem within_around (n : Node μ ε) (id : AgentId) (quantum : Nat) :
    (⟨host.behavior id, around id, n.policy, id, quantum⟩ : Resident (Node μ ε) μ).Within
      KeepsBooks where
  refl := .refl
  trans := .trans
  behavior := hhost.behavior id
  meanwhile _ := rfl
  dequeue n := n.keepsBooks_receive id
  register n := n.keepsBooks_register id
  countFailure _ := keepsBooks_aside (f := (around id).countFailure) rfl
  keepReport report _ := keepsBooks_aside (f := (around id).keepReport report) rfl
  complete n := n.keepsBooks_complete id

/-- A turn that a worker runs keeps the books. -/
theorem keepsBooks_runTask (n : Node μ ε) (index : Nat) (task : Task) :
    n.KeepsBooks (n.runTask host index task) := by
  unfold runTask
  cases hseat : n.seat? task.agent with
  | none => exact hhost.dropped task.agent n
  | some seat =>
      have hbegun := keepsBooks_header hseat seat.header.beginRun.1
      dsimp only
      split
      · let running (n : Node μ ε) : Node μ ε :=
          { n with pool := n.pool.setPhase index .running }
        let begun := n.alterSeat task.agent fun s => { s with header := seat.header.beginRun.1 }
        have hrunning : begun.KeepsBooks (running begun) := keepsBooks_aside (f := running) rfl
        -- the turn itself, from what the agent can do to the node
        have hturn := (within_around hhost n task.agent n.settings.scheduler.quantum).turn
          (running begun) task.restarts
        have hrecorded := fun (after : Node μ ε) ending messages =>
          keepsBooks_aside (n := after)
            (f := fun n => n.recordTurn index task.agent begun.now ending messages) rfl
        exact (((hbegun.trans hrunning).trans hturn).trans (hrecorded _ _ _)).trans
          (keepsBooks_settleTask hhost _ index _ _)
      · exact hbegun.trans (hhost.dropped task.agent _)

/-- A round of a worker. -/
theorem keepsBooks_work (n : Node μ ε) (index : Nat) : n.KeepsBooks (n.work host index) := by
  refine keepsBooks_onBehalfOf (fun n => ?_) n (some index)
  dsimp only
  -- the worker finds a task of its own, robs another, or parks
  split
  · next pool task _ =>
      have htaken : n.KeepsBooks { n with pool } :=
        keepsBooks_aside (f := fun n => { n with pool }) rfl
      exact htaken.trans (keepsBooks_runTask hhost _ index task)
  · next pool _ =>
      split
      · next robbed task count _ =>
          let stolen (n : Node μ ε) : Node μ ε := { n with
            pool := robbed
            metrics := { n.metrics with
              steals := n.metrics.steals + 1
              stolenTasks := n.metrics.stolenTasks + count } }
          have hstolen : n.KeepsBooks (stolen n) := keepsBooks_aside (f := stolen) rfl
          exact hstolen.trans (keepsBooks_runTask hhost _ index task)
      · next robbed _ =>
          exact keepsBooks_aside (f := fun n => { n with pool := robbed.park index }) rfl

/-- Rounds of several workers keep the books. -/
theorem keepsBooks_works (n : Node μ ε) (workers : List Nat) :
    n.KeepsBooks (workers.foldl (fun n index => n.work host index) n) := by
  induction workers generalizing n with
  | nil => exact .refl n
  | cons index rest ih => exact (keepsBooks_work hhost n index).trans (ih _)

/-- Working until all are parked keeps the books. -/
theorem keepsBooks_settle (rounds : Nat) (n : Node μ ε) : n.KeepsBooks (settle host rounds n) := by
  induction rounds generalizing n with
  | zero => exact .refl n
  | succ rounds ih =>
      unfold settle
      split
      · exact .refl n
      · split
        · exact .refl n
        · exact (keepsBooks_works hhost n _).trans (ih _)

/-- Working until the register is empty keeps the books. -/
theorem keepsBooks_drain (rounds : Nat) (n : Node μ ε) : n.KeepsBooks (drain host rounds n) := by
  induction rounds generalizing n with
  | zero => exact .refl n
  | succ rounds ih =>
      unfold drain
      split
      · exact .refl n
      · split
        · exact .refl n
        · exact (keepsBooks_works hhost n _).trans (ih _)

/-- Shutting the pool down keeps the books. -/
theorem keepsBooks_shutDown (n : Node μ ε) : n.KeepsBooks (n.shutDown host) := by
  let shut (n : Node μ ε) : Node μ ε := { n with pool := n.pool.shut }
  have hdropped : ∀ (tasks : List Task) (n : Node μ ε),
      n.KeepsBooks (tasks.foldl (fun n task => n.dropTask host task) n) := by
    intro tasks
    induction tasks with
    | nil => exact .refl
    | cons task rest ih => exact fun n => (hhost.dropped task.agent n).trans (ih _)
  let ended (n : Node μ ε) : Node μ ε := { n with timer := (n.timer.shut.pass n.now).state }
  have hshut : n.KeepsBooks (shut n) := keepsBooks_aside (f := shut) rfl
  exact ((hshut.trans (hdropped n.pool.held _)).trans (keepsBooks_aside (f := ended) rfl)).trans
    (keepsBooks_fireAll _ _)

/-- Ending an agent from outside strikes it from the register. -/
theorem runsTo_finishSeat (n : Node μ ε) (id : AgentId) : n.RunsTo (n.finishSeat host id) := by
  unfold finishSeat
  cases hseat : n.seat? id with
  | none => exact (KeepsBooks.refl n).runsTo
  | some seat =>
      have hfinished := keepsBooks_header hseat seat.header.finish.1
      -- the seat leaves the register without being counted: this is the strike
      have hstruck : RunsTo (n.alterSeat id fun s => { s with header := seat.header.finish.1 })
          (n.alterSeat id fun s =>
            { s with header := seat.header.finish.1, isRegistered := false }) := by
        intro _
        refine ⟨[.strike id], ?_⟩
        simp only [Accounts.run, List.foldl_cons, List.foldl_nil, Accounts.next, idle,
          alterSeat_alterSeat]
      have hended := hfinished.runsTo.trans hstruck
      dsimp only
      cases seat.header.finish.2 with
      | none => exact hended
      | some task => exact hended.trans (hhost.dropped task.agent _).runsTo

/-- Stopping is a run of the accounts, strikes included. -/
theorem runsTo_stop (n : Node μ ε) (rounds : Nat) : n.RunsTo (n.stop host rounds) := by
  -- every agent is asked first, by induction on the register
  have hasked : ∀ (ids : List AgentId) (n : Node μ ε),
      n.KeepsBooks (ids.foldl (fun n id => (n.terminate id).1) n) := by
    intro ids
    induction ids with
    | nil => exact .refl
    | cons id rest ih => exact fun n => (n.keepsBooks_terminate id).trans (ih _)
  -- whoever is left is struck, by induction again
  have hfinished : ∀ (ids : List AgentId) (n : Node μ ε),
      n.RunsTo (ids.foldl (fun n id => n.finishSeat host id) n) := by
    intro ids
    induction ids with
    | nil => exact fun n => (KeepsBooks.refl n).runsTo
    | cons id rest ih => exact fun n => (runsTo_finishSeat hhost n id).trans (ih _)
  unfold stop
  split
  · exact (KeepsBooks.refl n).runsTo
  · let closed (n : Node μ ε) : Node μ ε := { n with isRunning := false }
    have hclosed : n.KeepsBooks (closed n) := keepsBooks_aside (f := closed) rfl
    have hdown := ((hclosed.trans (hasked (closed n).registered _)).trans
      (keepsBooks_drain hhost rounds _)).trans (keepsBooks_shutDown hhost _)
    exact hdown.runsTo.trans (hfinished _ _)

end Host

/-! ## Requests and operations -/

/-- What anybody may ask of a node, an agent in its turn or somebody outside. -/
inductive Request (μ ε : Type) where
  | spawn (options : SpawnOptions ε)
  | send (target : AgentId) (message : μ) (sender : Option AgentId)
  | receive (id : AgentId)
  | closeMailbox (id : AgentId)
  | wake (id : AgentId)
  | wakeAt (id : AgentId) (deadline : Instant)
  | terminate (id : AgentId)
  /-- Something that the node counts nothing of. -/
  | aside (f : Node μ ε → Node μ ε)

/-- What a node does. -/
inductive Operation (μ ε : Type) where
  | ask (request : Request μ ε)
  | start
  /-- A worker makes a round. -/
  | work (index : Nat)
  /-- The workers work until they are parked. -/
  | settle (rounds : Nat)
  | advanceTo (t : Instant)
  | stop (rounds : Nat)

def Operation.isStop : Operation μ ε → Bool
  | stop _ => true
  | _ => false

variable [Transferable μ]

def ask (n : Node μ ε) : Request μ ε → Node μ ε
  | .spawn options => (n.spawn options).1
  | .send target message sender => (n.send target message sender).1
  | .receive id => (n.receive id).1
  | .closeMailbox id => n.closeMailbox id
  | .wake id => n.wake id
  | .wakeAt id deadline => n.wakeAt id deadline
  | .terminate id => (n.terminate id).1
  | .aside f => n.aside f

def operate (host : Host μ ε) (n : Node μ ε) : Operation μ ε → Node μ ε
  | .ask request => n.ask request
  | .start => n.start.1
  | .work index => n.work host index
  | .settle rounds => n.settle host rounds
  | .advanceTo t => n.advanceTo t
  | .stop rounds => n.stop host rounds

/-- One node becomes another by requests. -/
def Asks : Node μ ε → Node μ ε → Prop :=
  Relation.ReflTransGen fun n n' => ∃ request, n.ask request = n'

/-- Whatever is asked of the node keeps the books. -/
theorem keepsBooks_ask (n : Node μ ε) (request : Request μ ε) : n.KeepsBooks (n.ask request) := by
  cases request with
  | spawn options => exact n.keepsBooks_spawn options
  | send target message sender => exact n.keepsBooks_send target message sender
  | receive id => exact n.keepsBooks_receive id
  | closeMailbox id => exact n.keepsBooks_closeMailbox id
  | wake id => exact n.keepsBooks_wake id
  | wakeAt id deadline => exact n.keepsBooks_wakeAt id deadline
  | terminate id => exact n.keepsBooks_terminate id
  | aside f => exact keepsBooks_aside (f := fun n => n.aside f) rfl

/-- A sequence of requests keeps the books. -/
theorem Asks.keepsBooks (h : Asks n n') : n.KeepsBooks n' := by
  induction h with
  | refl => exact .refl n
  | tail _ hlast ih =>
      obtain ⟨request, rfl⟩ := hlast
      exact ih.trans (keepsBooks_ask _ request)

variable {host : Host μ ε} (hhost : host.Within Asks)

include hhost

/-- Agents that do nothing but ask keep the books. -/
theorem within_keepsBooks : host.Within KeepsBooks := hhost.mono fun _ _ => Asks.keepsBooks

/-- Every operation but a stop keeps the books. -/
theorem keepsBooks_operate (n : Node μ ε) {operation : Operation μ ε}
    (hstop : operation.isStop = false) : n.KeepsBooks (n.operate host operation) := by
  have hbooks := within_keepsBooks hhost
  cases operation with
  | ask request => exact n.keepsBooks_ask request
  | start =>
      simp only [operate, start]
      split
      · exact .refl n
      · let started (n : Node μ ε) : Node μ ε :=
          { n with pool := { n.pool with isStarted := true }, isRunning := true }
        exact keepsBooks_aside (f := started) rfl
  | work index => exact keepsBooks_work hbooks n index
  | settle rounds => exact keepsBooks_settle hbooks rounds n
  | advanceTo t => exact n.keepsBooks_advanceTo t
  | stop rounds => cases hstop

/-- What a node does in one go is a run of the steps that its accounts know, and strikes nobody
from the register unless it is a stop. -/
theorem exists_run_operate (hs : (idle n).Sound) (operation : Operation μ ε) :
    ∃ actions, (idle n).run actions = idle (n.operate host operation) ∧
      (operation.isStop = false → ∀ action ∈ actions, action.isStrike = false) := by
  cases hstop : operation.isStop with
  | false =>
      obtain ⟨actions, hrun, hstrike⟩ := (keepsBooks_operate hhost n hstop hs).exists_run
      exact ⟨actions, hrun, fun _ => hstrike⟩
  | true =>
      cases operation with
      | stop rounds =>
          obtain ⟨actions, hrun⟩ := runsTo_stop (within_keepsBooks hhost) n rounds hs
          exact ⟨actions, hrun, nofun⟩
      | _ => cases hstop

omit hhost

/-- Agents that hand on what they receive. -/
def relay (successor : AgentId → AgentId) : Host μ ε where
  behavior id :=
    { resume := .receive fun received => match received with
        | none => .answer (.ok .wait)
        | some e => .alter (fun n => (n.send (successor id) e.payload (some id)).1)
            (.answer (.ok .yield))
      onStop := .answer (.ok ())
      onRestart := fun n => (n, .ok ()) }
  dropped _ n := n

/-- A relaying host does no more than make requests. -/
theorem within_relay (successor : AgentId → AgentId) :
    (relay successor : Host μ ε).Within Asks := by
  refine ⟨fun id => ⟨fun received => ?_, trivial, fun n => .refl⟩, fun _ n => .refl⟩
  cases received with
  | none => trivial
  | some e =>
      exact ⟨fun n => .single ⟨.send (successor id) e.payload (some id), rfl⟩, fun _ => trivial⟩

end Node

namespace Accounts

open Header.Traffic (replace)

open Mailbox (Traffic)

/-- Whatever is done on a node, by whom and at however many mailboxes, and however the steps of
all calls and the counts mix: when no call is in progress and nothing is still to be counted, the
counters agree with the mailboxes of all agents there ever were, and, until a stop strikes agents
from the register, with the register. A spawn that is refused changes nothing. What a node does in
one go, from the request to the answer, is made of such steps: turns of agents, rounds of workers
and stops too. -/
theorem agrees_run [Transferable μ] (settings : Settings) (policy : Policy) (workers : Nat)
    (now : Instant) (app : ε) (batching : Batching Task) (actions : List (Action μ ε)) :
    let s := (idle (Node.ofSettings settings policy workers now app batching)).run actions
    (s.IsQuiet → s.node.MailAgrees ∧
      ((∀ action ∈ actions, action.isStrike = false) → s.node.RollAgrees)) ∧
    (∀ options, s.node.Refuses options → (∃ why, s.node.spawn options = (s.node, .error why)) ∧
      ∀ index, s.spawns[index]? = some (.looking options) →
        s.next (.spawn index) = { s with spawns := replace s.spawns index none }) ∧
    (s.IsQuiet → ∀ (host : Host μ ε), host.Within Node.Asks → ∀ operation,
      ∃ more, s.run more = idle (s.node.operate host operation) ∧
        (operation.isStop = false → ∀ action ∈ more, action.isStrike = false)) := by
  intro s
  let opened : Node μ ε := .ofSettings settings policy workers now app batching
  have hopened : (idle opened).Sound := sound_opened settings policy workers now app batching
  have hempty : (idle opened).Rolled := rfl
  have hs : s.Sound := hopened.run actions
  refine ⟨fun hquiet => ⟨hs.agrees hquiet, fun hstrike => ?_⟩, fun options hrefuses => ⟨?_, ?_⟩, ?_⟩
  · have hrolled : s.Rolled := hempty.run hopened hstrike
    exact hrolled.agrees hs hquiet
  · obtain ⟨why, hvet⟩ := (s.node.refuses_iff _).mp hrefuses
    exact ⟨why, by rw [Node.spawn_eq, hvet]⟩
  · exact fun index hcall => next_of_refuses hrefuses hcall
  · intro hquiet host hhost operation
    -- quiet accounts are the idle ones of the node, from which its operations run
    have hidle := hquiet.eq_idle
    rw [hidle] at hs ⊢
    exact Node.exists_run_operate hhost hs operation

/-- Two agents are spawned side by side, and both are written to before anything is counted. The
first has room for one message: it turns the second away, reads the first, and leaves. Nobody can
be spawned whose state could not be held, and then the second agent makes its turn. -/
theorem agrees_of_two :
    let e : Envelope Payload := ⟨.plain, .isolated, none, 0⟩
    let mailed (id : AgentId) (call step : Traffic.Action Waker Payload) (steps : Nat) :
        List (Action Payload Unit) := .mail id call :: List.replicate steps (.mail id step)
    let actions : List (Action Payload Unit) :=
      [.aside fun n => n.start.1, .callSpawn { mailbox := some ⟨1, 1, 0⟩ }, .callSpawn {},
        .spawn 0, .spawn 1, .spawn 0, .spawn 0] ++
      mailed ⟨1⟩ (.callSend e) (.send 0) 7 ++ mailed ⟨1⟩ (.callSend e) (.send 0) 3 ++
      mailed ⟨2⟩ (.callSend e) (.send 0) 8 ++ mailed ⟨1⟩ .callDequeue .receive 4 ++
      [.leave ⟨1⟩] ++ [Item.spawned, .spawned, .sent, .engaged, .rejected, .sent, .received,
        .cleared, .terminated].map .count
    let s := (idle (Node.ofSettings {} (.limited 1) 1 ⟨0⟩ ())).run actions
    let host : Host Payload Unit := Node.relay fun _ => ⟨1⟩
    s.IsQuiet ∧ s.node.MailAgrees ∧ s.node.RollAgrees ∧
      Item.all.map s.node.metrics.get = [2, 1, 2, 1, 1, 1, 1] ∧
      (∃ why, s.node.spawn { capability := some .immutableShared } = (s.node, .error why)) ∧
      ∃ more, s.run more = idle (s.node.operate host (.settle 1)) ∧
        ∀ action ∈ more, action.isStrike = false := by
  intro e mailed actions s host
  have hsound : s.Sound := (sound_opened {} (.limited 1) 1 ⟨0⟩ () .standard).run actions
  have hquiet : s.IsQuiet := by
    refine hsound.isQuiet ?_ ?_ ?_
    · subst s actions mailed e
      decide +kernel
    · subst s actions mailed e
      decide +kernel
    · subst s actions mailed e
      decide +kernel
  have hstrike : ∀ action ∈ actions, action.isStrike = false := by
    subst s actions mailed e
    decide +kernel
  have hrefuses : s.node.Refuses { capability := some .immutableShared } := .inr (.inl rfl)
  obtain ⟨hagrees, hspawn, hoperate⟩ := agrees_run {} (.limited 1) 1 ⟨0⟩ () .standard actions
  obtain ⟨hmail, hroll⟩ := hagrees hquiet
  obtain ⟨more, hmore, hnone⟩ := hoperate hquiet host (Node.within_relay _) (.settle 1)
  refine ⟨hquiet, hmail, hroll hstrike, ?_, (hspawn _ hrefuses).1, more, hmore, hnone rfl⟩
  subst s actions mailed e
  decide +kernel

end Accounts

end Troupe
