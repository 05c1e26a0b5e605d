import Troupe.Gossip.MessageId
import Troupe.Ownership
import Troupe.Text.Shown
import Troupe.Word

/-!
# Gossip

A gossiped message carries a shared payload under an identity, together with the
number of hops it has made and the agent that started it, when known. A copy refers to
the same payload; passing a message on counts one hop more and keeps everything else.

* `relay_keeps` — what a relayed message has in common with the one it came from.
-/

namespace Troupe

/-- A message that receivers may pass on. -/
structure Gossip (α : Type) where
  id : MessageId
  payload : Shared α
  /-- Hops so far; one on first delivery. -/
  hops : Nat
  origin : Option AgentId
deriving DecidableEq, Repr

namespace Gossip

variable {α : Type}

/-- A message about to make its first hop. -/
def first (id : MessageId) (payload : Shared α) : Gossip α := ⟨id, payload, 1, none⟩

/-- Another message with the same payload, for one more receiver. -/
def copy (g : Gossip α) : Gossip α :=
  { id := g.id, payload := g.payload, hops := g.hops, origin := g.origin }

/-- The same message one hop further. -/
def relay (g : Gossip α) : Gossip α := { g with hops := Word.next32 g.hops }

theorem relay_keeps (g : Gossip α) :
    g.relay.id = g.id ∧ g.relay.payload = g.payload ∧ g.relay.origin = g.origin :=
  ⟨rfl, rfl, rfl⟩

/-- The message in words, given its payload in words. -/
def describe (g : Gossip α) (payload : String) : String :=
  Text.record "Gossip" [
    ("id", Text.applied "MessageId" [Text.applied "Ulid" [toString g.id.value]]),
    ("payload", Text.applied "Shared" [payload]),
    ("hops", toString g.hops),
    ("origin", Text.optional (g.origin.map fun id => Text.applied "AgentId" [toString id.raw]))]

end Gossip

instance {α : Type} : Transferable (Gossip α) := ⟨fun _ => .immutableShared⟩

end Troupe
