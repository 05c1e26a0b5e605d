import Mathlib.Data.List.Perm.Subperm
import Mathlib.Data.List.Forall2
import Troupe.Gossip.Broadcast

/-!
# What a broadcast delivers

A ledger is kept beside the world of the peers, in which every delivery is entered with the peer,
the message and what the peer answered. Keeping it changes nothing else. So what a broadcast does
can be read off the ledger: each chosen peer is handed one copy, whatever the peers before it
answered, and the receipt says of each of them what it answered.

* `hand_entering` — handing round enters just the deliveries it makes;
* `hand_receipt` — the receipt sorts them into those that took the message and those that did not;
* `Choice.perm_range` — who chooses as many positions as there are chooses all;
* `broadcast_isAccounted` — ledger and receipt of a broadcast, for any choice and any failures.
-/

namespace Troupe

namespace Gossip

variable {α σ π : Type}

/-! ## The ledger -/

/-- A delivery that was made: who was handed what, and what came of it. -/
structure Delivery (π α : Type) where
  peer : π
  message : Gossip α
  answer : Except Fault Unit

/-- The peer of a delivery that succeeded. -/
def Delivery.target? (name : π → AgentId) (d : Delivery π α) : Option AgentId :=
  match d.answer with
  | .ok _ => some (name d.peer)
  | .error _ => none

/-- The peer of a delivery that failed, with the reason that the peer gave. -/
def Delivery.failure? (name : π → AgentId) (d : Delivery π α) : Option (AgentId × Fault) :=
  match d.answer with
  | .ok _ => none
  | .error why => some (name d.peer, why)

/-- A world with the deliveries made in it, oldest first. -/
structure Booked (σ π α : Type) where
  world : σ
  ledger : List (Delivery π α)

/-- Delivers and enters the delivery in the ledger. -/
def entering (deliver : σ → π → Gossip α → σ × Except Fault Unit) (s : Booked σ π α) (p : π)
    (g : Gossip α) : Booked σ π α × Except Fault Unit :=
  let (world, answer) := deliver s.world p g
  (⟨world, s.ledger ++ [⟨p, g, answer⟩]⟩, answer)

/-- The deliveries made when a message is handed to some peers in turn. -/
def deliveries (g : Gossip α) (deliver : σ → π → Gossip α → σ × Except Fault Unit) :
    List π → σ → List (Delivery π α)
  | [], _ => []
  | p :: rest, s =>
    let (s, answer) := deliver s p g.copy
    ⟨p, g.copy, answer⟩ :: g.deliveries deliver rest s

variable {g : Gossip α} {name : π → AgentId} {deliver : σ → π → Gossip α → σ × Except Fault Unit}

/-! ## Handing round -/

/-- Entering deliveries in a ledger changes neither the world nor the receipt. -/
theorem hand_entering (tried : List π) (s : σ) (ledger : List (Delivery π α)) (r : Receipt) :
    g.hand name (entering deliver) tried ⟨s, ledger⟩ r =
      (⟨(g.hand name deliver tried s r).1, ledger ++ g.deliveries deliver tried s⟩,
        (g.hand name deliver tried s r).2) := by
  induction tried generalizing s ledger r with
  | nil => simp only [hand, deliveries, List.append_nil]
  | cons p rest ih =>
      simp only [hand, deliveries, entering]
      rw [ih, List.append_assoc, List.singleton_append]

/-- The deliveries are made to the peers tried, in order. -/
theorem deliveries_peers (tried : List π) (s : σ) :
    (g.deliveries deliver tried s).map (·.peer) = tried := by
  induction tried generalizing s with
  | nil => rfl
  | cons p rest ih =>
      simp only [deliveries, List.map_cons]
      rw [ih]

/-- Whatever is delivered is a copy of the gossip. -/
theorem deliveries_message (tried : List π) (s : σ) {d : Delivery π α}
    (hd : d ∈ g.deliveries deliver tried s) : d.message = g.copy := by
  induction tried generalizing s with
  | nil => exact nomatch hd
  | cons p rest ih =>
      rcases List.mem_cons.mp hd with rfl | hlater
      · rfl
      · exact ih _ hlater

/-- A delivery is noted on one side of the receipt, behind what is there. -/
theorem note_targets (r : Receipt) (d : Delivery π α) :
    (r.note (name d.peer) d.answer).targets = r.targets ++ (d.target? name).toList := by
  obtain ⟨peer, message, answer⟩ := d
  cases answer with
  | ok => rfl
  | error why => exact (List.append_nil _).symm

/-- What one delivery adds to the failures of the receipt. -/
theorem note_failures (r : Receipt) (d : Delivery π α) :
    (r.note (name d.peer) d.answer).failures = r.failures ++ (d.failure? name).toList := by
  obtain ⟨peer, message, answer⟩ := d
  cases answer with
  | ok => exact (List.append_nil _).symm
  | error why => rfl

/-- The receipt is for the deliveries made, in the order in which they were made. -/
theorem hand_receipt (g : Gossip α) (name : π → AgentId)
    (deliver : σ → π → Gossip α → σ × Except Fault Unit) (tried : List π) (s : σ) (r : Receipt) :
    let after := (g.hand name deliver tried s r).2
    let made := g.deliveries deliver tried s
    after.id = r.id ∧ after.targets = r.targets ++ made.filterMap (Delivery.target? name) ∧
      after.failures = r.failures ++ made.filterMap (Delivery.failure? name) := by
  -- on the peers still to be tried; the receipt so far is carried along
  induction tried generalizing s r with
  | nil => exact ⟨rfl, (List.append_nil _).symm, (List.append_nil _).symm⟩
  | cons p rest ih =>
      let d : Delivery π α := ⟨p, g.copy, (deliver s p g.copy).2⟩
      have hfirst : (g.deliveries deliver (p :: rest) s) =
          d :: g.deliveries deliver rest (deliver s p g.copy).1 := rfl
      have hid : (r.note (name p) d.answer).id = r.id := by
        cases d.answer <;> rfl
      obtain ⟨hafter, htargets, hfailures⟩ := ih (deliver s p g.copy).1 (r.note (name p) d.answer)
      refine ⟨hafter.trans hid, ?_, ?_⟩
      · show (g.hand name deliver rest _ (r.note (name p) d.answer)).2.targets = _
        rw [htargets, note_targets r d, List.append_assoc, hfirst, List.filterMap_cons]
        cases d.target? name <;> rfl
      · show (g.hand name deliver rest _ (r.note (name p) d.answer)).2.failures = _
        rw [hfailures, note_failures r d, List.append_assoc, hfirst, List.filterMap_cons]
        cases d.failure? name <;> rfl

/-- Every delivery is on one side of the receipt. -/
theorem sides_perm (name : π → AgentId) (ledger : List (Delivery π α)) :
    (ledger.filterMap (Delivery.target? name) ++
      (ledger.filterMap (Delivery.failure? name)).map (·.1)).Perm
        (ledger.map fun d => name d.peer) := by
  induction ledger with
  | nil => exact .nil
  | cons d rest ih =>
      obtain ⟨peer, message, answer⟩ := d
      -- a delivery counts on exactly one of the two sides
      cases answer with
      | ok =>
          simp only [List.filterMap_cons, Delivery.target?, Delivery.failure?, List.map_cons,
            List.cons_append]
          exact ih.cons _
      | error why =>
          simp only [List.filterMap_cons, Delivery.target?, Delivery.failure?, List.map_cons]
          exact List.perm_middle.trans (ih.cons _)

/-! ## Choices -/

/-- As many positions of a list of peers as may be chosen, each at most once. -/
structure Choice (count fanout : Nat) (chosen : List Nat) : Prop where
  nodup : chosen.Nodup
  lt : ∀ position ∈ chosen, position < count
  length_eq : chosen.length = min fanout count

/-- The first positions are a choice. -/
theorem choice_leading (peers : List π) (fanout : Nat) :
    Choice peers.length fanout (leading peers fanout) where
  nodup := List.nodup_range
  lt position hposition := by
    have hlt := List.mem_range.mp hposition
    omega
  length_eq := List.length_range

/-- Who may choose all chooses all, in some order. -/
theorem Choice.perm_range {count fanout : Nat} {chosen : List Nat}
    (h : Choice count fanout chosen) (hall : count ≤ fanout) : chosen.Perm (List.range count) := by
  have hsubset : chosen ⊆ List.range count := fun position hposition =>
    List.mem_range.mpr (h.lt position hposition)
  refine (List.subperm_of_subset h.nodup hsubset).perm_of_length_le ?_
  rw [List.length_range, h.length_eq]
  omega

/-- The peers at all positions are all peers. -/
theorem filterMap_range (peers : List π) :
    (List.range peers.length).filterMap (peers[·]?) = peers := by
  induction peers with
  | nil => rfl
  | cons p rest ih =>
      rw [List.length_cons, List.range_succ_eq_map, List.filterMap_cons, List.filterMap_map]
      exact congrArg (p :: ·) ih

/-- Deliveries to the peers at some positions are made position by position. -/
theorem forall₂_of_peers {peers : List π} {chosen : List Nat} {ledger : List (Delivery π α)}
    (hlt : ∀ position ∈ chosen, position < peers.length)
    (hpeers : ledger.map (·.peer) = chosen.filterMap (peers[·]?)) :
    List.Forall₂ (fun position d => peers[position]? = some d.peer) chosen ledger := by
  induction chosen generalizing ledger with
  | nil =>
      have hnil : ledger = [] := List.map_eq_nil_iff.mp hpeers
      rw [hnil]
      exact .nil
  | cons position rest ih =>
      have hfound := List.getElem?_eq_getElem (hlt position List.mem_cons_self)
      rw [List.filterMap_cons_some hfound] at hpeers
      cases ledger with
      | nil => exact nomatch hpeers
      | cons d later =>
          obtain ⟨hpeer, hlater⟩ := List.cons.inj hpeers
          refine .cons (hfound.trans (congrArg some hpeer.symm)) (ih ?_ hlater)
          exact fun other hother => hlt other (List.mem_cons_of_mem _ hother)

/-! ## Broadcasts -/

/-- A message is another copy of `g`: with the payload of `g` itself, not one like it. -/
structure IsCopyOf (g message : Gossip α) : Prop where
  id_eq : message.id = g.id
  hops_eq : message.hops = g.hops
  origin_eq : message.origin = g.origin
  same_payload : message.payload.same g.payload = true
  value_eq : message.payload.value = g.payload.value

/-- A copy is a copy: all but the payload's identity is the original's. -/
theorem isCopyOf_copy (g : Gossip α) : g.IsCopyOf g.copy where
  id_eq := rfl
  hops_eq := rfl
  origin_eq := rfl
  same_payload := beq_self_eq_true _
  value_eq := rfl

/-- A ledger and a receipt are those of a broadcast of `g` to the chosen ones among the peers. -/
structure IsAccounted (g : Gossip α) (name : π → AgentId) (peers : List π) (fanout : Nat)
    (chosen : List Nat) (ledger : List (Delivery π α)) (r : Receipt) : Prop where
  /-- There is one delivery for each chosen position, in the order of the choice. -/
  peers_eq : List.Forall₂ (fun position d => peers[position]? = some d.peer) chosen ledger
  copies : ∀ d ∈ ledger, g.IsCopyOf d.message
  id_eq : r.id = g.id
  targets_eq : r.targets = ledger.filterMap (Delivery.target? name)
  failures_eq : r.failures = ledger.filterMap (Delivery.failure? name)
  partition : (r.targets ++ r.failures.map (·.1)).Perm (ledger.map fun d => name d.peer)
  /-- Where all may be chosen, all are reached. -/
  all : peers.length ≤ fanout → (ledger.map (·.peer)).Perm peers

/-- The receipt of a handing accounts for the deliveries made. -/
theorem isAccounted_hand {peers : List π} {fanout : Nat} {chosen : List Nat}
    (hchosen : Choice peers.length fanout chosen) (s : σ) :
    let tried := chosen.filterMap (peers[·]?)
    g.IsAccounted name peers fanout chosen (g.deliveries deliver tried s)
      (g.hand name deliver tried s { id := g.id }).2 := by
  intro tried
  obtain ⟨hid, htargets, hfailures⟩ :=
    hand_receipt g name deliver tried s { id := g.id }
  have hpeers : (g.deliveries deliver tried s).map (·.peer) = tried := deliveries_peers tried s
  constructor
  · exact forall₂_of_peers hchosen.lt hpeers
  · intro d hd
    rw [deliveries_message tried s hd]
    exact g.isCopyOf_copy
  · exact hid
  · exact htargets
  · exact hfailures
  · rw [htargets, hfailures]
    exact sides_perm name _
  · intro hall
    have hperm := (hchosen.perm_range hall).filterMap (peers[·]?)
    rw [filterMap_range] at hperm
    rw [hpeers]
    exact hperm

/-- Whatever peers are chosen and whichever of them fail, a broadcast hands each chosen peer one
copy and nobody else anything, and the receipt accounts for all of them. A broadcast that may reach
nobody is refused, with nothing done. -/
theorem broadcast_isAccounted (g : Gossip α) (name : π → AgentId)
    (deliver : σ → π → Gossip α → σ × Except Fault Unit) (peers : List π) (fanout : Nat)
    (chosen : List Nat) (s : σ) :
    let (after, answer) := g.broadcast name (entering deliver) peers fanout chosen ⟨s, []⟩
    g.broadcast name deliver peers fanout chosen s = (after.world, answer) ∧
      (fanout = 0 → after = ⟨s, []⟩ ∧ answer = .error (.misuse .zeroFanout)) ∧
      (1 ≤ fanout → Choice peers.length fanout chosen →
        ∃ receipt, answer = .ok receipt ∧
          g.IsAccounted name peers fanout chosen after.ledger receipt) := by
  -- a fanout of zero is refused before anything is delivered
  by_cases hzero : fanout = 0
  · subst hzero
    refine ⟨rfl, fun _ => ⟨rfl, rfl⟩, fun hpos => ?_⟩
    omega
  · let tried := chosen.filterMap (peers[·]?)
    have hentered : g.broadcast name (entering deliver) peers fanout chosen ⟨s, []⟩ =
        (⟨(g.hand name deliver tried s { id := g.id }).1, g.deliveries deliver tried s⟩,
          .ok (g.hand name deliver tried s { id := g.id }).2) := by
      simp only [broadcast, if_neg hzero]
      rw [hand_entering, List.nil_append]
    rw [hentered]
    refine ⟨?_, fun h => absurd h hzero, fun _ hchosen => ?_⟩
    · rw [broadcast, if_neg hzero]
    · exact ⟨_, rfl, isAccounted_hand hchosen s⟩

/-- Two of three peers are tried, the last one first. It is down, which does not keep the message
from the first one; the second bears the same name and gets nothing. -/
theorem broadcast_isAccounted_one_down :
    let g : Gossip Nat := ⟨⟨9⟩, ⟨4, 11⟩, 3, some ⟨6⟩⟩
    let peers : List (AgentId × Bool) := [(⟨5⟩, false), (⟨5⟩, false), (⟨7⟩, true)]
    let deliver (got : List AgentId) (p : AgentId × Bool) (_ : Gossip Nat) :
        List AgentId × Except Fault Unit :=
      if p.2 then (got, .error .mailboxClosed) else (got ++ [p.1], .ok ())
    1 ≤ 2 ∧ Choice peers.length 2 [2, 0] ∧
      ∃ ledger receipt, g.IsAccounted (·.1) peers 2 [2, 0] ledger receipt ∧
        g.broadcast (·.1) deliver peers 2 [2, 0] [] = ([⟨5⟩], .ok receipt) ∧
        receipt.targets = [⟨5⟩] ∧ receipt.failures = [(⟨7⟩, .mailboxClosed)] := by
  intro g peers deliver
  have hchoice : Choice peers.length 2 [2, 0] := ⟨by decide, by decide, by decide⟩
  obtain ⟨hsame, -, haccounted⟩ :=
    broadcast_isAccounted g (fun p => p.1) deliver peers 2 [2, 0] []
  obtain ⟨receipt, hreceipt, hledger⟩ := haccounted (by decide) hchoice
  obtain rfl := Except.ok.inj hreceipt
  exact ⟨by decide, hchoice, _, _, hledger, hsame, rfl, rfl⟩

end Gossip

end Troupe
