import Mathlib.Logic.Function.Basic
import Troupe.Proofs.Mailbox.Tally
import Troupe.Proofs.Node.Dealings

/-!
# The accounts of a node

A node counts the agents that come and go, and what the mailboxes of agents count for themselves.
It counts after the fact: a message is in a mailbox, or an agent on the register, before the
counter of the node moves, and meanwhile everybody else goes on. Here the steps of sends,
receives, spawns and departures mix, at any number of mailboxes, and so do the counts.

* `Sound.next` — what has happened is what has been counted and what is still due;
* `Rolled.next` — so it is with the register, until a stop strikes agents from it;
* `Sound.agrees`, `Rolled.agrees` — when nothing is in progress, the counters agree with the
  mailboxes and with the register.
-/

namespace Troupe

variable {μ ε : Type}

/-! ## What is counted -/

/-- What a node counts of its agents. -/
inductive Item where
  | spawned
  | terminated
  | sent
  | received
  | rejected
  | engaged
  | cleared
deriving DecidableEq, Repr

def Item.all : List Item := [spawned, terminated, sent, received, rejected, engaged, cleared]

/-- Every counter is listed. -/
theorem Item.mem_all (item : Item) : item ∈ all := by cases item <;> decide

/-- What a node counts when a mailbox counts. -/
def Mailbox.Tally.item : Mailbox.Tally → Item
  | enqueued => .sent
  | dequeued => .received
  | rejected => .rejected
  | engaged => .engaged
  | cleared => .cleared

/-- No two tallies of a mailbox are counted by one counter. -/
theorem Mailbox.Tally.item_injective : Function.Injective Mailbox.Tally.item := by
  intro tally tally' h
  cases tally <;> cases tally' <;> first | rfl | cases h

namespace Metrics

/-- The counter of an item. -/
def get (m : Metrics) : Item → Nat
  | .spawned => m.spawned
  | .terminated => m.terminated
  | .sent => m.sent
  | .received => m.received
  | .rejected => m.rejected
  | .engaged => m.engaged
  | .cleared => m.cleared

/-- Counts an item. -/
def count (m : Metrics) : Item → Metrics
  | .spawned => { m with spawned := m.spawned + 1 }
  | .terminated => { m with terminated := m.terminated + 1 }
  | .sent => { m with sent := m.sent + 1 }
  | .received => { m with received := m.received + 1 }
  | .rejected => { m with rejected := m.rejected + 1 }
  | .engaged => { m with engaged := m.engaged + 1 }
  | .cleared => { m with cleared := m.cleared + 1 }

theorem get_count (m : Metrics) (item other : Item) :
    (m.count item).get other = m.get other + if other = item then 1 else 0 := by
  cases item <;> cases other <;> rfl

end Metrics

namespace Mailbox

variable {ω : Type}

/-- The calls in progress at a mailbox. -/
structure Calls (ω μ : Type) where
  sends : List (SendCall μ) := []
  receiver : Option (ReceiveCall ω μ) := none
  closes : List CloseCall := []

/-- All of them have returned. -/
def Calls.isOver (c : Calls ω μ) : Bool :=
  c.sends.isEmpty && c.receiver.isNone && c.closes.isEmpty

/-- Calls that are over are no calls. -/
theorem Calls.eq_of_isOver {c : Calls ω μ} (h : c.isOver = true) : c = {} := by
  obtain ⟨sends, receiver, closes⟩ := c
  simp only [isOver, Bool.and_eq_true, List.isEmpty_iff, Option.isNone_iff_eq_none] at h
  obtain ⟨⟨rfl, rfl⟩, rfl⟩ := h
  rfl

/-- What goes on at a mailbox. -/
def Calls.traffic (c : Calls ω μ) (m : Mailbox ω μ) : Traffic ω μ :=
  ⟨m, c.sends, c.receiver, c.closes, [], []⟩

def Traffic.calls (s : Traffic ω μ) : Calls ω μ := ⟨s.sends, s.receiver, s.closes⟩

/-- What has come of earlier calls does not matter. -/
theorem Traffic.Balanced.calls {s : Traffic ω μ} (hs : s.Balanced) :
    (s.calls.traffic s.mailbox).Balanced :=
  ⟨hs.reserved, hs.room, hs.counted⟩

end Mailbox

namespace Node

/-- The mailboxes of all agents there ever were. -/
def boxes (n : Node μ ε) : List (Mailbox Waker μ) := n.seats.values.map (·.mailbox)

/-- What the mailboxes of all agents have counted together. -/
def total (n : Node μ ε) (tally : Mailbox.Tally) : Nat :=
  (n.boxes.map fun m => m.totals.get tally).sum

section Seats

variable {n : Node μ ε} {id : AgentId} {seat : Seat μ ε}

/-- An agent that has no seat has none to change. -/
theorem alterSeat_of_none (hseat : n.seat? id = none) (f : Seat μ ε → Seat μ ε) :
    n.alterSeat id f = n := by
  have hsame : n.seats.modify id f = n.seats := by
    unfold Table.modify
    rw [show n.seats.get? id = none from hseat]
  rw [alterSeat, hsame]

/-- A change to one seat changes the total by what it changes at that seat. -/
theorem total_alterSeat (hseat : n.seat? id = some seat) (f : Seat μ ε → Seat μ ε)
    (tally : Mailbox.Tally) :
    (n.alterSeat id f).total tally + seat.mailbox.totals.get tally =
      n.total tally + (f seat).mailbox.totals.get tally := by
  simp only [total, boxes, List.map_map]
  exact Table.sum_modify (fun seat => seat.mailbox.totals.get tally) hseat f

theorem length_boxes (n : Node μ ε) : n.boxes.length = n.seats.keys.length := by
  simp [boxes, Table.values, Table.keys]

theorem length_boxes_alterSeat (n : Node μ ε) (id : AgentId) (f : Seat μ ε → Seat μ ε) :
    (n.alterSeat id f).boxes.length = n.boxes.length := by
  rw [length_boxes, length_boxes, alterSeat, Table.keys_modify]

/-- The agents registered, counted seat by seat. -/
theorem agentCount_eq (n : Node μ ε) :
    n.agentCount = (n.seats.values.map fun seat => seat.isRegistered.toNat).sum := by
  simp only [agentCount, registered, Table.values, List.length_map, List.map_map]
  induction n.seats.rows with
  | nil => rfl
  | cons row rest ih =>
      cases hrow : row.2.isRegistered with
      | false => simp [hrow, ih]
      | true =>
          simp [hrow, ih]
          omega

/-- A change to one seat changes the number of agents by what it changes at that seat. -/
theorem agentCount_alterSeat (hseat : n.seat? id = some seat) (f : Seat μ ε → Seat μ ε) :
    (n.alterSeat id f).agentCount + seat.isRegistered.toNat =
      n.agentCount + (f seat).isRegistered.toNat := by
  rw [agentCount_eq, agentCount_eq]
  exact Table.sum_modify (fun seat => seat.isRegistered.toNat) hseat f

end Seats

/-- The counters of a node agree with the mailboxes of its agents. -/
structure MailAgrees (n : Node μ ε) : Prop where
  sent : n.metrics.sent = (n.boxes.map fun m => m.totals.enqueued).sum
  received : n.metrics.received = (n.boxes.map fun m => m.totals.dequeued).sum
  rejected : n.metrics.rejected = (n.boxes.map fun m => m.totals.rejected).sum
  engaged : n.metrics.engaged = (n.boxes.map fun m => m.totals.engaged).sum
  cleared : n.metrics.cleared = (n.boxes.map fun m => m.totals.cleared).sum
  /-- An agent that was spawned has its mailbox among them, whatever became of it. -/
  spawned : n.metrics.spawned = n.boxes.length
  inFlight : n.metrics.inFlight = (n.boxes.map fun m => m.queue.length).sum
  /-- That is what the mailboxes themselves report. -/
  length : ∀ m ∈ n.boxes, m.length = m.queue.length

/-- The counters of a node agree with its register. -/
def RollAgrees (n : Node μ ε) : Prop :=
  n.metrics.spawned = n.metrics.terminated + n.agentCount

/-- The sizing and the capability of an agent that may be spawned. -/
def vet (n : Node μ ε) (options : SpawnOptions ε) : Except Fault (Watermarks × Capability) :=
  if n.isRunning = false then .error .spawnRejected
  else
    let capability := options.capability.getD .isolated
    if holdsState capability = false then .error (.violation (.unfitState capability))
    else
      let marks := options.mailbox.getD n.settings.mailbox
      match marks.validate with
      | .error why => .error why
      | .ok _ => .ok (marks, capability)

/-- A spawn is refused, or enrolls an agent with an empty mailbox. -/
theorem spawn_eq (n : Node μ ε) (options : SpawnOptions ε) :
    n.spawn options = match n.vet options with
      | .error why => (n, .error why)
      | .ok (marks, capability) =>
        ((n.enroll (.ofMarks marks) capability options).1, .ok n.nextId) := by
  unfold spawn vet Mailbox.open?
  split
  · rfl
  · dsimp only
    split
    · rfl
    · cases (options.mailbox.getD n.settings.mailbox).validate with
      | error why => rfl
      | ok _ => rfl

/-- Why an agent may not be spawned. -/
def Refuses (n : Node μ ε) (options : SpawnOptions ε) : Prop :=
  n.isRunning = false ∨ holdsState (options.capability.getD .isolated) = false ∨
    ¬ (options.mailbox.getD n.settings.mailbox).Valid

/-- A spawn is refused exactly if the look before it fails. -/
theorem refuses_iff (n : Node μ ε) (options : SpawnOptions ε) :
    n.Refuses options ↔ ∃ why, n.vet options = .error why := by
  simp only [vet, Refuses, ← Watermarks.check_eq_none_iff, Watermarks.validate]
  cases n.isRunning with
  | false => simp
  | true =>
      cases holdsState (options.capability.getD .isolated) with
      | false => simp
      | true => cases (options.mailbox.getD n.settings.mailbox).check <;> simp

/-- All that a node counts nothing of: whatever `f` does to the seats of agents, to their
identities and to the counters of what it does count is left undone. -/
def aside (n : Node μ ε) (f : Node μ ε → Node μ ε) : Node μ ε :=
  { f n with
    seats := n.seats
    nextId := n.nextId
    metrics := { (f n).metrics with
      spawned := n.metrics.spawned
      terminated := n.metrics.terminated
      sent := n.metrics.sent
      received := n.metrics.received
      rejected := n.metrics.rejected
      engaged := n.metrics.engaged
      cleared := n.metrics.cleared } }

end Node

/-! ## A node at work -/

/-- A spawn in progress. -/
inductive Accounts.SpawnCall (ε : Type) where
  /-- About to look whether the agent may be spawned. -/
  | looking (options : Node.SpawnOptions ε)
  /-- It may: about to put it on the register. -/
  | enrolling (options : Node.SpawnOptions ε) (marks : Watermarks) (capability : Capability)

/-- A node, the calls in progress on it, and what it has not counted yet. -/
structure Accounts (μ ε : Type) where
  node : Node μ ε
  /-- The calls at the mailbox of each agent. -/
  calls : AgentId → Mailbox.Calls Waker μ
  spawns : List (Accounts.SpawnCall ε)
  /-- How many of each item have happened and have still to be counted. -/
  due : Item → Nat

namespace Accounts

open Header.Traffic (replace)

open Mailbox (Traffic Calls)

/-- Nothing is in progress. -/
def idle (n : Node μ ε) : Accounts μ ε := ⟨n, fun _ => {}, [], fun _ => 0⟩

/-- What can happen next. A spawn in progress is named by its place among its like. -/
inductive Action (μ ε : Type) where
  | callSpawn (options : Node.SpawnOptions ε)
  | spawn (index : Nat)
  /-- Something happens at the mailbox of an agent. -/
  | mail (id : AgentId) (action : Traffic.Action Waker μ)
  /-- An agent comes to its end and leaves the register. -/
  | leave (id : AgentId)
  /-- A stop strikes an agent from the register. -/
  | strike (id : AgentId)
  | count (item : Item)
  /-- An agent is woken, or its turn begins or ends, or it waits for the next message. -/
  | stir (id : AgentId) (header : Header Task) (receiver : Option Waker)
  /-- Something that the node counts nothing of. -/
  | aside (f : Node μ ε → Node μ ε)

/-- So many items more have still to be counted. -/
def owe (due : Item → Nat) (items : List Item) : Item → Nat :=
  fun item => due item + items.count item

/-- A step of a spawn. -/
def spawn (s : Accounts μ ε) (index : Nat) : SpawnCall ε → Accounts μ ε
  | .looking options =>
    match s.node.vet options with
    | .error _ => { s with spawns := replace s.spawns index none }
    | .ok (marks, capability) =>
      { s with spawns := replace s.spawns index (some (.enrolling options marks capability)) }
  | .enrolling options marks capability =>
    -- the agent is on the register before it is counted
    { s with
      node := { (s.node.enroll (.ofMarks marks) capability options).1 with
        metrics := s.node.metrics }
      spawns := replace s.spawns index none
      due := owe s.due [.spawned] }

/-- Something happens at the mailbox in this seat. -/
def mail (s : Accounts μ ε) (id : AgentId) (seat : Seat μ ε) (action : Traffic.Action Waker μ) :
    Accounts μ ε :=
  let before := (s.calls id).traffic seat.mailbox
  { s with
    node := s.node.alterSeat id fun seat => { seat with mailbox := (before.next action).mailbox }
    calls := Function.update s.calls id (before.next action).calls
    due := owe s.due ((before.tallies action).map Mailbox.Tally.item) }

def next (s : Accounts μ ε) : Action μ ε → Accounts μ ε
  | .callSpawn options => { s with spawns := s.spawns ++ [.looking options] }
  | .spawn index =>
    match s.spawns[index]? with
    | none => s
    | some call => s.spawn index call
  | .mail id action =>
    match s.node.seat? id with
    | none => s
    | some seat => s.mail id seat action
  | .leave id =>
    match s.node.seat? id with
    | none => s
    | some seat =>
      if seat.isRegistered then
        { s with
          node := s.node.alterSeat id fun seat => { seat with isRegistered := false }
          due := owe s.due [.terminated] }
      else s
  | .strike id =>
    { s with node := s.node.alterSeat id fun seat => { seat with isRegistered := false } }
  | .count item =>
    if s.due item = 0 then s
    else
      { s with
        node := { s.node with metrics := s.node.metrics.count item }
        due := Function.update s.due item (s.due item - 1) }
  | .stir id header receiver =>
    { s with node := s.node.alterSeat id fun seat =>
        { seat with header, mailbox := { seat.mailbox with receiver } } }
  | .aside f => { s with node := s.node.aside f }

/-- What comes of actions one after another. -/
def run (s : Accounts μ ε) (actions : List (Action μ ε)) : Accounts μ ε := actions.foldl next s

theorem run_append (s : Accounts μ ε) (first second : List (Action μ ε)) :
    s.run (first ++ second) = (s.run first).run second := List.foldl_append

/-- No call is in progress, and all that has happened has been counted. -/
structure IsQuiet (s : Accounts μ ε) : Prop where
  calls : ∀ id, s.calls id = {}
  spawns : s.spawns = []
  due : ∀ item, s.due item = 0

/-! ## What has happened and what has been counted -/

/-- What has happened is what has been counted and what is still due. -/
structure Sound (s : Accounts μ ε) : Prop where
  minted : s.node.Minted
  distinct : s.node.seats.Distinct
  /-- Nobody makes calls at mailboxes that there are not. -/
  absent : ∀ id, s.node.seat? id = none → s.calls id = {}
  balanced : ∀ id seat, s.node.seat? id = some seat →
    ((s.calls id).traffic seat.mailbox).Balanced
  mail : ∀ tally, s.node.metrics.get tally.item + s.due tally.item = s.node.total tally
  spawned : s.node.metrics.spawned + s.due .spawned = s.node.boxes.length

section Sound

variable {s : Accounts μ ε} {id : AgentId} {seat : Seat μ ε}

theorem owe_of_notMem (due : Item → Nat) {items : List Item} {item : Item} (h : item ∉ items) :
    owe due items item = due item := by
  rw [owe, List.count_eq_zero.mpr h, Nat.add_zero]

/-- A node that has just opened has its accounts in order. -/
theorem sound_opened (settings : Settings) (policy : Policy) (workers : Nat) (now : Instant)
    (app : ε) (batching : Batching Task) :
    (idle (Node.ofSettings settings policy workers now app batching : Node μ ε)).Sound := by
  refine ⟨fun _ _ => rfl, Table.distinct_empty, fun _ _ => rfl, ?_, ?_, rfl⟩
  · intro id seat hseat
    cases hseat
  · intro tally
    cases tally <;> rfl

/-- Something happens to one agent, and what the node has to count of it is due. -/
theorem Sound.alter (hs : s.Sound) (hseat : s.node.seat? id = some seat)
    (f : Seat μ ε → Seat μ ε) (calls : Calls Waker μ) (due : Item → Nat)
    (hbalanced : (calls.traffic (f seat).mailbox).Balanced)
    (hmail : ∀ tally : Mailbox.Tally, due tally.item + seat.mailbox.totals.get tally =
      s.due tally.item + (f seat).mailbox.totals.get tally)
    (hspawned : due .spawned = s.due .spawned) :
    Sound { s with
      node := s.node.alterSeat id f
      calls := Function.update s.calls id calls
      due } := by
  -- only the agent's seat, calls and dues changed: every other agent is as it was
  constructor
  · intro other hother
    rw [Node.seat?_alterSeat]
    split
    · next hsame => rw [← hsame, hs.minted other hother, Option.map_none]
    · exact hs.minted other hother
  · exact hs.distinct.modify id f
  · intro other hother
    dsimp only at hother ⊢
    rw [Node.seat?_alterSeat] at hother
    split at hother
    · rw [hseat] at hother
      cases hother
    · next hne => rw [Function.update_of_ne hne, hs.absent other hother]
  · intro other seat' hseat'
    dsimp only at hseat' ⊢
    rw [Node.seat?_alterSeat] at hseat'
    split at hseat'
    · next hsame =>
        subst hsame
        rw [hseat] at hseat'
        obtain rfl : f seat = seat' := Option.some.inj hseat'
        rwa [Function.update_self]
    · next hne =>
        rw [Function.update_of_ne hne]
        exact hs.balanced other seat' hseat'
  · intro tally
    have htotal := Node.total_alterSeat hseat f tally
    have hbefore := hs.mail tally
    have hchange := hmail tally
    show s.node.metrics.get tally.item + due tally.item = (s.node.alterSeat id f).total tally
    omega
  · show s.node.metrics.spawned + due .spawned = (s.node.alterSeat id f).boxes.length
    rw [hspawned, Node.length_boxes_alterSeat]
    exact hs.spawned

/-- Something happens to one agent that concerns neither what is counted nor the calls at its
mailbox. -/
theorem Sound.touch (hs : s.Sound) (id : AgentId) (f : Seat μ ε → Seat μ ε) (due : Item → Nat)
    (hmailbox : ∀ seat : Seat μ ε, ∃ receiver, (f seat).mailbox = { seat.mailbox with receiver })
    (hmail : ∀ tally : Mailbox.Tally, due tally.item = s.due tally.item)
    (hspawned : due .spawned = s.due .spawned) :
    Sound { s with node := s.node.alterSeat id f, due } := by
  cases hseat : s.node.seat? id with
  | none =>
      rw [Node.alterSeat_of_none hseat]
      refine ⟨hs.minted, hs.distinct, hs.absent, hs.balanced, fun tally => ?_, ?_⟩
      · exact (congrArg _ (hmail tally)).trans (hs.mail tally)
      · exact (congrArg _ hspawned).trans hs.spawned
  | some seat =>
      obtain ⟨receiver, hreceiver⟩ := hmailbox seat
      have hbalanced := hs.balanced id seat hseat
      have hafter := hs.alter hseat f (s.calls id) due ?_ ?_ hspawned
      · rwa [Function.update_eq_self] at hafter
      · rw [hreceiver]
        exact ⟨hbalanced.reserved, hbalanced.room, hbalanced.counted⟩
      · intro tally
        rw [hreceiver, hmail tally]

/-- A step at a mailbox owes the counters exactly what the mailbox counted. -/
theorem Sound.mailed (hs : s.Sound) (hseat : s.node.seat? id = some seat)
    (action : Traffic.Action Waker μ) : (s.mail id seat action).Sound := by
  have hbalanced := (hs.balanced id seat hseat).next action
  refine hs.alter hseat _ _ _ hbalanced.calls (fun tally => ?_) (owe_of_notMem _ ?_)
  · have htotals := ((s.calls id).traffic seat.mailbox).totals_next action tally
    simp only [owe, List.count_map_of_injective _ _ Mailbox.Tally.item_injective, htotals]
    simp only [Calls.traffic]
    omega
  · intro hmem
    obtain ⟨tally, -, hitem⟩ := List.mem_map.mp hmem
    cases tally <;> cases hitem

/-- An enrolled agent brings one mailbox. -/
theorem boxes_enrolled (hminted : s.node.Minted) (index : Nat) (options : Node.SpawnOptions ε)
    (marks : Watermarks) (capability : Capability) :
    (s.spawn index (.enrolling options marks capability)).node.boxes =
      s.node.boxes ++ [.ofMarks marks] := by
  have hnew : s.node.seats.get? s.node.nextId = none := hminted s.node.nextId (Nat.le_refl _)
  simp only [Node.boxes, spawn, Node.enroll, Table.values_insert_of_none hnew, List.map_append,
    List.map_cons, List.map_nil]

/-- An enrolled agent counts as one more. -/
theorem agentCount_enrolled (hminted : s.node.Minted) (index : Nat)
    (options : Node.SpawnOptions ε) (marks : Watermarks) (capability : Capability) :
    (s.spawn index (.enrolling options marks capability)).node.agentCount =
      s.node.agentCount + 1 := by
  have hnew : s.node.seats.get? s.node.nextId = none := hminted s.node.nextId (Nat.le_refl _)
  simp [Node.agentCount_eq, spawn, Node.enroll, Table.values_insert_of_none hnew]

/-- A newcomer has a mailbox of its own, in which nothing has been counted. -/
theorem Sound.enrolled (hs : s.Sound) (index : Nat) (options : Node.SpawnOptions ε)
    (marks : Watermarks) (capability : Capability) :
    (s.spawn index (.enrolling options marks capability)).Sound := by
  have hnew : s.node.seat? s.node.nextId = none := hs.minted s.node.nextId (Nat.le_refl _)
  -- the new seat stands under the next identity, which nobody had
  have hseat : ∀ other, (s.spawn index (.enrolling options marks capability)).node.seat? other =
      if other = s.node.nextId then
        some ⟨.fresh, .ofMarks marks, capability, true, options.observer⟩
      else s.node.seat? other :=
    fun other => s.node.seats.get?_insert s.node.nextId other _
  constructor
  · exact (Node.onward_enroll s.node (.ofMarks marks) rfl capability options).minted hs.minted
  · exact hs.distinct.insert _ _
  · intro other hother
    rw [hseat] at hother
    split at hother
    · cases hother
    · exact hs.absent other hother
  · intro other seat' hseat'
    rw [hseat] at hseat'
    split at hseat'
    · next hsame =>
        obtain rfl := Option.some.inj hseat'
        subst hsame
        show ((s.calls s.node.nextId).traffic (.ofMarks marks)).Balanced
        rw [hs.absent _ hnew]
        exact Traffic.balanced_start marks
    · exact hs.balanced other seat' hseat'
  · intro tally
    have hdue : owe s.due [.spawned] tally.item = s.due tally.item :=
      owe_of_notMem _ (by cases tally <;> decide)
    have htotal : (s.spawn index (.enrolling options marks capability)).node.total tally =
        s.node.total tally := by
      have hzero : (Mailbox.ofMarks marks : Mailbox Waker μ).totals.get tally = 0 := by
        cases tally <;> rfl
      rw [Node.total, boxes_enrolled hs.minted, List.map_append, List.sum_append]
      simp [Node.total, hzero]
    rw [htotal]
    exact (congrArg _ hdue).trans (hs.mail tally)
  · have hspawned := hs.spawned
    rw [boxes_enrolled hs.minted, List.length_append]
    show s.node.metrics.spawned + (s.due .spawned + 1) = s.node.boxes.length + 1
    omega

/-- What is counted is due no more. -/
theorem next_count (s : Accounts μ ε) (item : Item) : ∃ metrics due,
    s.next (.count item) = { s with node := { s.node with metrics }, due } ∧
      ∀ other, metrics.get other + due other = s.node.metrics.get other + s.due other := by
  simp only [next]
  split
  · exact ⟨s.node.metrics, s.due, rfl, fun _ => rfl⟩
  · next hdue =>
      refine ⟨_, _, rfl, fun other => ?_⟩
      rw [Metrics.get_count, Function.update_apply]
      by_cases hsame : other = item
      · rw [if_pos hsame, if_pos hsame, hsame]
        omega
      · rw [if_neg hsame, if_neg hsame, Nat.add_zero]

/-- Whatever happens next. -/
theorem Sound.next (hs : s.Sound) (action : Action μ ε) : (s.next action).Sound := by
  -- a mailbox action moves totals and dues together; all others leave the mailboxes' totals
  cases action with
  | callSpawn options =>
      exact ⟨hs.minted, hs.distinct, hs.absent, hs.balanced, hs.mail, hs.spawned⟩
  | spawn index =>
      simp only [Accounts.next]
      split
      · exact hs
      · next call hcall =>
          cases call with
          | looking options =>
              simp only [Accounts.spawn]
              split
              · exact ⟨hs.minted, hs.distinct, hs.absent, hs.balanced, hs.mail, hs.spawned⟩
              · exact ⟨hs.minted, hs.distinct, hs.absent, hs.balanced, hs.mail, hs.spawned⟩
          | enrolling options marks capability => exact hs.enrolled index options marks capability
  | mail id action =>
      simp only [Accounts.next]
      split
      · exact hs
      · next seat hseat => exact hs.mailed hseat action
  | leave id =>
      simp only [Accounts.next]
      split
      · exact hs
      · split
        · exact hs.touch id _ _ (fun seat => ⟨seat.mailbox.receiver, rfl⟩)
            (fun tally => owe_of_notMem _ (by cases tally <;> decide)) (owe_of_notMem _ (by decide))
        · exact hs
  | strike id =>
      exact hs.touch id _ s.due (fun seat => ⟨seat.mailbox.receiver, rfl⟩) (fun _ => rfl) rfl
  | count item =>
      obtain ⟨metrics, due, hnext, hget⟩ := s.next_count item
      rw [hnext]
      refine ⟨hs.minted, hs.distinct, hs.absent, hs.balanced, fun tally => ?_, ?_⟩
      · exact (hget tally.item).trans (hs.mail tally)
      · exact (hget .spawned).trans hs.spawned
  | stir id header receiver =>
      exact hs.touch id _ s.due (fun seat => ⟨receiver, rfl⟩) (fun _ => rfl) rfl
  | aside f =>
      refine ⟨hs.minted, hs.distinct, hs.absent, hs.balanced, fun tally => ?_, hs.spawned⟩
      have hsame : (s.node.aside f).metrics.get tally.item = s.node.metrics.get tally.item := by
        cases tally <;> rfl
      exact (congrArg (· + _) hsame).trans (hs.mail tally)

/-- Accounts that are in order stay in order along every run. -/
theorem Sound.run (hs : s.Sound) (actions : List (Action μ ε)) : (s.run actions).Sound := by
  induction actions generalizing s with
  | nil => exact hs
  | cons action rest ih => exact ih (hs.next action)

end Sound

/-! ## The register -/

section Rolled

variable {s : Accounts μ ε} {id : AgentId} {seat : Seat μ ε}

/-- Whoever was spawned is on the register, or has left it and been counted, or is still to be
counted. -/
def Rolled (s : Accounts μ ε) : Prop :=
  s.node.metrics.terminated + s.due .terminated + s.node.agentCount = s.node.boxes.length

/-- A stop clears the register, and does not count whom it strikes. -/
def Action.isStrike : Action μ ε → Bool
  | strike _ => true
  | _ => false

/-- Something happens to one agent that leaves it on the register, or its departure is due. -/
theorem Rolled.alter (hs : s.Rolled) (hseat : s.node.seat? id = some seat)
    (f : Seat μ ε → Seat μ ε) (calls : AgentId → Calls Waker μ) (due : Item → Nat)
    (hroll : due .terminated + (f seat).isRegistered.toNat =
      s.due .terminated + seat.isRegistered.toNat) :
    Rolled { s with node := s.node.alterSeat id f, calls, due } := by
  have hcount := Node.agentCount_alterSeat hseat f
  unfold Rolled at hs ⊢
  rw [Node.length_boxes_alterSeat]
  show s.node.metrics.terminated + due .terminated + (s.node.alterSeat id f).agentCount = _
  omega

/-- Any action but a strike keeps the roll: a termination is owed when an agent leaves the register.
-/
theorem Rolled.next (hs : s.Rolled) (hsound : s.Sound) {action : Action μ ε}
    (hstrike : action.isStrike = false) : (s.next action).Rolled := by
  cases action with
  | callSpawn options => exact hs
  | spawn index =>
      simp only [Accounts.next]
      split
      · exact hs
      · next call hcall =>
          cases call with
          | looking options =>
              simp only [Accounts.spawn]
              split
              · exact hs
              · exact hs
          | enrolling options marks capability =>
              have hcount := agentCount_enrolled hsound.minted index options marks capability
              unfold Rolled at hs ⊢
              rw [boxes_enrolled hsound.minted, List.length_append, hcount]
              have hdue : owe s.due [.spawned] .terminated = s.due .terminated := rfl
              show s.node.metrics.terminated + owe s.due [.spawned] .terminated + _ = _ + 1
              omega
  | mail id action =>
      simp only [Accounts.next]
      split
      · exact hs
      · next seat hseat =>
          refine hs.alter hseat _ _ _ ?_
          dsimp only
          -- nothing a mailbox counts is a termination
          rw [owe_of_notMem]
          intro hmem
          obtain ⟨tally, -, hitem⟩ := List.mem_map.mp hmem
          cases tally <;> cases hitem
  | leave id =>
      simp only [Accounts.next]
      split
      · exact hs
      · next seat hseat =>
          split
          · next hregistered =>
              refine hs.alter hseat _ _ _ ?_
              rw [hregistered]
              rfl
          · exact hs
  | strike id => cases hstrike
  | count item =>
      obtain ⟨metrics, due, hnext, hget⟩ := s.next_count item
      rw [hnext]
      exact (congrArg (· + s.node.agentCount) (hget .terminated)).trans hs
  | stir id header receiver =>
      cases hseat : s.node.seat? id with
      | none =>
          simp only [Accounts.next, Node.alterSeat_of_none hseat]
          exact hs
      | some seat => exact hs.alter hseat _ s.calls s.due rfl
  | aside f => exact hs

end Rolled

/-! ## When nothing is in progress -/

section Quiet

variable {s : Accounts μ ε}

/-- Nothing is in progress if nothing is at the mailboxes that there are. -/
theorem Sound.isQuiet (hs : s.Sound)
    (hcalls : ∀ id ∈ s.node.seats.keys, (s.calls id).isOver = true)
    (hspawns : s.spawns.isEmpty = true) (hdue : ∀ item ∈ Item.all, s.due item = 0) :
    s.IsQuiet := by
  refine ⟨fun id => ?_, List.isEmpty_iff.mp hspawns, fun item => hdue item item.mem_all⟩
  by_cases hmem : id ∈ s.node.seats.keys
  · exact Calls.eq_of_isOver (hcalls id hmem)
  · rw [Table.mem_keys_iff, Option.not_isSome_iff_eq_none] at hmem
    exact hs.absent id hmem

/-- Where no call is in progress, what got in was handed out or is queued. -/
theorem Sound.settled_seat (hs : s.Sound) {id : AgentId} {seat : Seat μ ε}
    (hcalls : s.calls id = {}) (hseat : s.node.seat? id = some seat) :
    seat.mailbox.Settled ∧ seat.mailbox.totals.enqueued =
      seat.mailbox.totals.dequeued + seat.mailbox.queue.length := by
  have hbalanced := hs.balanced id seat hseat
  rw [hcalls] at hbalanced
  exact ⟨⟨hbalanced.reserved, hbalanced.room⟩, hbalanced.counted⟩

/-- While it is quiet every mailbox is settled, and what it took in is what it gave out or still
holds. -/
theorem Sound.settled (hs : s.Sound) (hquiet : s.IsQuiet) {m : Mailbox Waker μ}
    (hm : m ∈ s.node.boxes) :
    m.Settled ∧ m.totals.enqueued = m.totals.dequeued + m.queue.length := by
  obtain ⟨seat, hseat, rfl⟩ := List.mem_map.mp hm
  obtain ⟨⟨id, _⟩, hrow, rfl⟩ := List.mem_map.mp hseat
  exact hs.settled_seat (hquiet.calls id) (hs.distinct.get?_of_mem hrow)

/-- While it is quiet the counters are the sums over the mailboxes. -/
theorem Sound.agrees (hs : s.Sound) (hquiet : s.IsQuiet) : s.node.MailAgrees := by
  have hmail : ∀ tally : Mailbox.Tally, s.node.metrics.get tally.item = s.node.total tally := by
    intro tally
    rw [← hs.mail tally, hquiet.due, Nat.add_zero]
  -- the queues hold the difference between what went in and what came out
  have hqueued : s.node.total .enqueued =
      s.node.total .dequeued + (s.node.boxes.map fun m => m.queue.length).sum := by
    rw [Node.total, Node.total, ← List.sum_map_add]
    exact congrArg List.sum (List.map_congr_left fun m hm => (hs.settled hquiet hm).2)
  constructor
  · exact hmail .enqueued
  · exact hmail .dequeued
  · exact hmail .rejected
  · exact hmail .engaged
  · exact hmail .cleared
  · rw [← hs.spawned, hquiet.due, Nat.add_zero]
  · have hsent : s.node.metrics.sent = s.node.total .enqueued := hmail .enqueued
    have hreceived : s.node.metrics.received = s.node.total .dequeued := hmail .dequeued
    rw [Metrics.inFlight, hsent, hreceived, hqueued, Nat.add_sub_cancel_left]
  · exact fun m hm => (hs.settled hquiet hm).1.reserved_eq

/-- While it is quiet the terminations counted are those that happened. -/
theorem Rolled.agrees (hs : s.Rolled) (hsound : s.Sound) (hquiet : s.IsQuiet) :
    s.node.RollAgrees := by
  rw [Node.RollAgrees, (hsound.agrees hquiet).spawned, ← hs, hquiet.due, Nat.add_zero]

/-- A run without a strike keeps the roll. -/
theorem Rolled.run (hs : s.Rolled) (hsound : s.Sound) {actions : List (Action μ ε)}
    (hstrike : ∀ action ∈ actions, action.isStrike = false) : (s.run actions).Rolled := by
  induction actions generalizing s with
  | nil => exact hs
  | cons action rest ih =>
      rw [List.forall_mem_cons] at hstrike
      exact ih (hs.next hsound hstrike.1) (hsound.next action) hstrike.2

/-- Quiet accounts are the idle ones of their node. -/
theorem IsQuiet.eq_idle (h : s.IsQuiet) : s = idle s.node := by
  obtain ⟨n, calls, spawns, due⟩ := s
  obtain rfl : calls = fun _ => {} := funext h.calls
  obtain rfl : spawns = [] := h.spawns
  obtain rfl : due = fun _ => 0 := funext h.due
  rfl

/-- A spawn that is refused leaves everything as it was, and is over. -/
theorem next_of_refuses {options : Node.SpawnOptions ε} (hrefuses : s.node.Refuses options)
    {index : Nat} (hcall : s.spawns[index]? = some (.looking options)) :
    s.next (.spawn index) = { s with spawns := replace s.spawns index none } := by
  obtain ⟨why, hvet⟩ := (s.node.refuses_iff _).mp hrefuses
  simp only [next, hcall, spawn, hvet]

end Quiet

end Accounts

end Troupe
