import Troupe.Gossip.Basic

/-!
# Broadcasting

One round of gossip: a message is handed to some of the peers, one after another, and
a receipt says who took it and who did not. Which peers are tried is chosen outside;
here the choice is a list of positions.

* `broadcast_zero` — nothing is delivered when no peer may be chosen.
-/

namespace Troupe

/-- What one round did. -/
structure Receipt where
  id : MessageId
  /-- The peers that took the message, in the order in which they were tried. -/
  targets : List AgentId := []
  /-- The peers that did not, with the reason. -/
  failures : List (AgentId × Fault) := []
deriving Repr

namespace Receipt

/-- How many peers took the message. -/
def delivered (r : Receipt) : Nat := r.targets.length

/-- Notes what became of one delivery. -/
def note (r : Receipt) (peer : AgentId) : Except Fault Unit → Receipt
  | .ok _ => { r with targets := r.targets ++ [peer] }
  | .error why => { r with failures := r.failures ++ [(peer, why)] }

end Receipt

namespace Gossip

variable {α σ π : Type}

/-- Hands a copy of the message to each peer in turn. `deliver` changes the world of
the peers. -/
def hand (g : Gossip α) (name : π → AgentId) (deliver : σ → π → Gossip α → σ × Except Fault Unit) :
    List π → σ → Receipt → σ × Receipt
  | [], s, r => (s, r)
  | p :: rest, s, r =>
    let (s, result) := deliver s p g.copy
    hand g name deliver rest s (r.note (name p) result)

/-- Hands the message to the peers at the chosen positions. -/
def broadcast (g : Gossip α) (name : π → AgentId)
    (deliver : σ → π → Gossip α → σ × Except Fault Unit) (peers : List π) (fanout : Nat)
    (chosen : List Nat) (s : σ) : σ × Except Fault Receipt :=
  if fanout = 0 then (s, .error (.misuse .zeroFanout))
  else
    let (s, receipt) := g.hand name deliver (chosen.filterMap (peers[·]?)) s { id := g.id }
    (s, .ok receipt)

/-- The positions tried when every peer may be chosen, or else the first ones. -/
def leading (peers : List π) (fanout : Nat) : List Nat := List.range (min fanout peers.length)

theorem broadcast_zero (g : Gossip α) (name : π → AgentId)
    (deliver : σ → π → Gossip α → σ × Except Fault Unit) (peers : List π) (chosen : List Nat)
    (s : σ) : g.broadcast name deliver peers 0 chosen s = (s, .error (.misuse .zeroFanout)) := rfl

end Gossip

end Troupe
