import Troupe.Form.Fault
import Troupe.Mailbox.Stats
import Troupe.Ownership
import Troupe.Text.Shown

/-!
# Mail as documents

Sizings, envelopes, statistics and refusals of mailboxes. A refusal is a fault that
gives back the message it is about.

* `marksOf?_withCapacity` — a sizing may be given by its capacity alone.
-/

namespace Troupe.Form

open Document (table text truth)

/-- A sizing: three numbers, or a capacity to derive the others from. -/
def marksOf (d : Document) : Watermarks :=
  match nat? d "with_capacity" with
  | some n => .ofCapacity n
  | none => ⟨nat0 d "capacity", nat0 d "high", nat0 d "low"⟩

/-- The same as it is computed: whoever derives a sizing from a capacity may break down. -/
def marksOf? (d : Document) : Option Watermarks :=
  match nat? d "with_capacity" with
  | some n => Watermarks.ofCapacity? n
  | none => some (marksOf d)

def ofMarks (m : Watermarks) : List (String × Document) :=
  [("capacity", nat m.capacity), ("high", nat m.high), ("low", nat m.low)]

def ofStatus : Status → Document
  | .accepted => text "accepted"
  | .engaged => text "engaged"
  | .backpressured => text "backpressured"

/-- The layout of a refusal, without its message. -/
def refusalText {μ : Type} : Refusal μ → String
  | .full _ c => Text.recordEtc "Full" [("capacity", toString c)]
  | .closed _ => Text.applied "Closed" [".."]
  | .forbidden _ => Text.applied "Forbidden" [".."]

/-- A refusal in all its aspects, with the message that comes back. -/
def refusalRows {μ : Type} (returned : μ → Document) (r : Refusal μ) : List (String × Document) :=
  [("error", text (kindOf r.fault)), ("message", text r.fault.text),
    ("display", text r.fault.text), ("debug", text (refusalText r)), ("full", truth r.isFull),
    ("closed", truth r.isClosed), ("returned", returned r.message)]

/-- What became of a message that was sent. -/
def sent {μ : Type} (returned : μ → Document) : Except (Refusal μ) Status → Document
  | .ok s => ofStatus s
  | .error r => table (refusalRows returned r)

/-- An envelope that carries a labelled text. -/
def ofEnvelope (e : Envelope (Tagged String)) : Document :=
  table [("value", text e.payload.value), ("seq", nat e.seq), ("sender", optional ofAgent e.sender),
    ("tag", ofCapability e.capability)]

/-- What a receiver that polls is told. -/
def polled {α : Type} (f : α → Document) : Poll (Option α) → Document
  | .pending => text "pending"
  | .ready none => text "end"
  | .ready (some a) => f a

def ofStats (s : MailboxStats) : Document :=
  table [("enqueued", nat s.totals.enqueued), ("dequeued", nat s.totals.dequeued),
    ("rejected", nat s.totals.rejected), ("engaged", nat s.totals.engaged),
    ("cleared", nat s.totals.cleared), ("len", nat s.length), ("capacity", nat s.capacity),
    ("fill", ofReal s.fill), ("display", text s.text)]

def ofEvent : PressureEvent → Document
  | .engaged n => .list [text "engaged", nat n]
  | .cleared n => .list [text "cleared", nat n]

theorem marksOf?_withCapacity (n : Nat) :
    marksOf? (table [("with_capacity", nat n)]) = Watermarks.ofCapacity? n := by
  simp [marksOf?, nat?, present?, Document.get?, Document.rows, Document.find?, nat, natOf?]

end Troupe.Form
