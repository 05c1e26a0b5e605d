import Troupe.Decimal.Literal
import Troupe.Document.Overlay
import Troupe.Settings.Basic

/-!
# Settings from documents

A document is read leniently: a number may be given as a number of either kind, as a
truth value or as a text, sections may be tables or lists in the order of their fields,
and unknown keys are passed over. What cannot be read makes the whole document
unreadable.

* `section_empty` — an empty section is the section used where nothing is set.
-/

namespace Troupe

/-- The words for one and zero. -/
def switch? (s : String) : Option Bool :=
  let s := Document.lower s
  if s = "true" ∨ s = "on" ∨ s = "yes" then some true
  else if s = "false" ∨ s = "off" ∨ s = "no" then some false
  else none

/-- Digits after an optional plus, as a word. -/
def word? (s : String) : Option Nat :=
  let ds := match s.toList with
    | '+' :: ds => ds
    | ds => ds
  if ds.isEmpty || !ds.all Char.isDigit then none
  else
    let n := Decimal.Literal.natOf 0 ds
    if n ≤ Word.last then some n else none

/-- Digits after an optional sign, as a signed word. -/
def signed? (s : String) : Option Int :=
  let (negative, ds) := Decimal.Literal.sign s.toList
  if ds.isEmpty || !ds.all Char.isDigit then none
  else
    let n : Int := Decimal.Literal.natOf 0 ds
    let n := if negative then -n else n
    if -(Word.half : Int) ≤ n ∧ n < Word.half then some n else none

/-- The word nearest to a number: a half goes away from zero, what is below zero or no
number at all is zero, what is too large is the largest word. -/
def wordOf (x : Float) : Nat := x.round.toUInt64.toNat

namespace Document

/-- A whole number beyond a signed word counts as a real number. -/
def isWide (n : Int) : Bool := decide (n < -(Word.half : Int)) || decide ((Word.half : Int) ≤ n)

/-- Reads a word. -/
def word? : Document → Option Nat
  | whole n => if isWide n then some (wordOf (Decimal.ofInt n)) else if n < 0 then none else some n.natAbs
  | text s =>
    match switch? s with
    | some b => some (if b then 1 else 0)
    | none => Troupe.word? s
  | truth b => some (if b then 1 else 0)
  | real x => some (wordOf x)
  | _ => none

/-- Reads a real number. -/
def real? : Document → Option Float
  | whole n => some (Decimal.ofInt n)
  | real x => some x
  | text s =>
    match switch? s with
    | some b => some (if b then 1.0 else 0.0)
    | none => Decimal.Literal.float? s
  | truth b => some (if b then 1.0 else 0.0)
  | _ => none

/-- The kind of strategy that a word names, in any case. -/
def kindNamed? (s : String) : Option StrategyKind :=
  let s := lower s
  if s = "default" then some .plain
  else if s = "predictive" then some .predictive
  else none

/-- Reads a kind of strategy: a word, or a table whose one key is that word. -/
def kind? : Document → Option StrategyKind
  | text s => kindNamed? s
  | table [(key, _)] => kindNamed? key
  | _ => none

/-- The value of a field of a section: by name, or by place when the section is a list. -/
def field? (d : Document) (name : String) (place : Nat) : Option Document :=
  match d with
  | list items => items[place]?
  | d => d.get? name

/-- Reads a field; a field that is not there keeps its value. -/
def take {α : Type} (d : Document) (name : String) (place : Nat) (read : Document → Option α)
    (default : α) : Option α :=
  match d.field? name place with
  | some value => read value
  | none => some default

/-- A section, which is a table or a list. -/
def isSection : Document → Bool
  | table _ => true
  | list _ => true
  | _ => false

/-- Reads a section with a reader of its fields. -/
def section? {α : Type} (read : Document → Option α) (d : Document) : Option α :=
  if d.isSection then read d else none

def scheduler? (d : Document) : Option SchedulerSettings := do
  let s : SchedulerSettings := {}
  let workers ← d.take "workers" 0 word? s.workers
  let localCapacity ← d.take "local_queue_capacity" 1 word? s.localCapacity
  let stealAttempts ← d.take "steal_attempts" 2 word? s.stealAttempts
  let quantum ← d.take "quantum" 3 word? s.quantum
  let parkMillis ← d.take "park_timeout_ms" 4 word? s.parkMillis
  let drainMillis ← d.take "drain_timeout_ms" 5 word? s.drainMillis
  pure { workers, localCapacity, stealAttempts, quantum, parkMillis, drainMillis }

def mailbox? (d : Document) : Option Watermarks := do
  let m := Watermarks.standard
  let capacity ← d.take "capacity" 0 word? m.capacity
  let high ← d.take "high_watermark" 1 word? m.high
  let low ← d.take "low_watermark" 2 word? m.low
  pure { capacity, high, low }

def strategy? (d : Document) : Option StrategySettings := do
  let s : StrategySettings := {}
  let kind ← d.take "kind" 0 kind? s.kind
  let alpha ← d.take "ewma_alpha" 1 real? s.alpha
  let imbalance ← d.take "imbalance_ratio" 2 real? s.imbalance
  pure { kind, alpha, imbalance }

def lease? (d : Document) : Option LeaseSettings := do
  let s : LeaseSettings := {}
  let ttlMillis ← d.take "default_ttl_ms" 0 word? s.ttlMillis
  let retryMillis ← d.take "retry_interval_ms" 1 word? s.retryMillis
  pure { ttlMillis, retryMillis }

/-- Reads the settings of a node. -/
def settings? (d : Document) : Option Settings := do
  let s := Settings.standard
  let scheduler ← d.take "scheduler" 0 (section? scheduler?) s.scheduler
  let mailbox ← d.take "mailbox" 1 (section? mailbox?) s.mailbox
  let strategy ← d.take "strategy" 2 (section? strategy?) s.strategy
  let lease ← d.take "lease" 3 (section? lease?) s.lease
  pure { scheduler, mailbox, strategy, lease }

theorem section_empty : section? mailbox? (table []) = some Watermarks.standard := rfl

end Document

end Troupe
