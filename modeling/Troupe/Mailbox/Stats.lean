import Troupe.Mailbox.Basic

/-!
# Statistics of a mailbox

What a mailbox reports about itself: its totals, its length and its capacity.
-/

namespace Troupe

/-- Totals, length and capacity of a mailbox at one moment. -/
structure MailboxStats where
  totals : Totals
  length : Nat
  capacity : Nat
deriving DecidableEq, Repr, Inhabited

namespace MailboxStats

/-- The share of the capacity in use, in percent; zero without capacity. -/
def fill (s : MailboxStats) : Float :=
  if s.capacity = 0 then 0.0 else Float.ofNat s.length / Float.ofNat s.capacity * 100.0

/-- The statistics in words. -/
def text (s : MailboxStats) : String :=
  toString s.length ++ "/" ++ toString s.capacity ++ " queued, " ++ toString s.totals.enqueued
    ++ " in, " ++ toString s.totals.dequeued ++ " out, " ++ toString s.totals.rejected
    ++ " rejected"

end MailboxStats

/-- The statistics of a mailbox. -/
def Mailbox.stats {ω μ : Type} (m : Mailbox ω μ) : MailboxStats :=
  ⟨m.totals, m.length, m.marks.capacity⟩

end Troupe
