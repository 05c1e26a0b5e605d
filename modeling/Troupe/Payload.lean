import Troupe.Envelope

/-!
# Payloads

The values that messages are made of, by the way they are put together. Each kind of
container answers for itself: most of them move with their contents and count as
isolated, an optional value asks its content, a relabelled one answers its label.

* `capability_sequence`, `capability_boxed`, `capability_pair` — containers that move
  with their contents are isolated, whatever they hold.
-/

namespace Troupe

/-- A value of a message. -/
inductive Payload where
  /-- A value without parts, such as a number or a text. -/
  | plain
  /-- The identity of an agent. -/
  | identity
  | absent
  | present (content : Payload)
  | sequence (items : List Payload)
  | boxed (content : Payload)
  | pair (first second : Payload)
  | isolated (content : Payload)
  | shared (content : Payload)
  /-- A value under a label of its own. -/
  | tagged (label : Capability) (content : Payload)
  /-- A value passed on by gossip. -/
  | gossip (content : Payload)
deriving Repr

namespace Payload

/-- The rights that go with a value. -/
def capability : Payload → Capability
  | .plain => .isolated
  | .identity => .identityOnly
  | .absent => .isolated
  | .present content => content.capability
  | .sequence _ => .isolated
  | .boxed _ => .isolated
  | .pair _ _ => .isolated
  | .isolated _ => .isolated
  | .shared _ => .immutableShared
  | .tagged label _ => label
  | .gossip _ => .immutableShared

instance : Transferable Payload := ⟨capability⟩

@[simp] theorem capability_sequence (items : List Payload) :
    (sequence items).capability = .isolated := rfl

@[simp] theorem capability_boxed (content : Payload) :
    (boxed content).capability = .isolated := rfl

@[simp] theorem capability_pair (first second : Payload) :
    (pair first second).capability = .isolated := rfl

end Payload

end Troupe
