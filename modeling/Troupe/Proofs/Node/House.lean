import Troupe.Node.Running
import Troupe.Proofs.Agent.Conduct

/-!
# A house with its agents

Agents come and go while a node runs. To spawn one takes several steps: a look whether the node
runs, an entry in the register, a task in a run queue. To stop the node takes many more: the
flag is taken down, the register is walked through and every agent on it asked to end, the
workers finish what they have, the register is walked through twice again, once to see who is
left and once to clear it, and who was left is ended. Here the steps of spawns and of one stop
mix with those of the agents, of their workers and of everybody who knows an agent.

The register has parts, and a walk through it sees one part at a time.

* `spawn_alone` — a spawn that nobody interferes with;
* `answer_eq` — a house answers a spawn as a node does.
-/

namespace Troupe

open Header.Traffic (replace)

variable {μ ε : Type}

/-! ## What a house is made of -/

/-- How a house is laid out. -/
structure Plan where
  /-- How many parts the register has. -/
  parts : Nat
  /-- The part for an agent, by the order in which agents come. -/
  part : Nat → Fin parts
  /-- The mailbox of an agent of whom nothing else is said. -/
  marks : Watermarks
  policy : Policy
  quantum : Nat

/-- An agent that somebody wants to spawn. -/
structure Offer (μ ε : Type) where
  behavior : Behavior (Office μ ε) μ
  isCivil : behavior.Within Office.Mingles
  /-- What the agent knows from the start. -/
  own : ε
  capability : Option Capability
  marks : Option Watermarks

/-- An agent on the register, or one that was there. -/
structure Tenant (μ ε : Type) where
  behavior : Behavior (Office μ ε) μ
  isCivil : behavior.Within Office.Mingles
  tenure : Tenure μ ε
  /-- How many of the stop's walks through the register had passed the agent's place when it
  came. -/
  missed : Nat

/-- A spawn in progress. -/
inductive SpawnCall (μ ε : Type) where
  /-- About to look whether the house is open. -/
  | looking (offer : Offer μ ε)
  /-- It is: about to put the agent on the register. -/
  | enrolling (offer : Offer μ ε) (marks : Watermarks)
  /-- About to queue the agent's task. -/
  | submitting (tenant : Nat)

/-- Where the stop is. -/
inductive StopCall where
  | waiting
  /-- Walks through the register; has seen the parts before `part`. -/
  | listing (part : Nat) (seen : List Nat)
  /-- Asks the agents it has seen to end. -/
  | asking (left : List Nat) (call : AskCall)
  /-- Waits for the register to become empty, until it has waited long enough. -/
  | draining
  /-- Waits for the workers to put down what they have. -/
  | joining
  /-- Walks through the register to see who is left. -/
  | collecting (part : Nat) (seen : List Nat)
  /-- Clears the register. -/
  | clearing (part : Nat) (left : List Nat)
  /-- Ends who was left. -/
  | finishing (left : List Nat) (call : Header.FinishCall)
  | stopped

/-- A house with its agents, in the order in which they came, and the calls in progress. -/
structure House (μ ε : Type) where
  isOpen : Bool
  tenants : List (Tenant μ ε)
  spawns : List (SpawnCall μ ε)
  /-- What the spawns were answered that have returned; an agent is named by its place. -/
  answers : List (Except Fault Nat)
  stop : StopCall

/-- What can happen next. A spawn in progress is named by its place among its like. -/
inductive House.Action (μ ε : Type) where
  | callSpawn (offer : Offer μ ε)
  | spawn (index : Nat)
  /-- Something happens to an agent. -/
  | tenant (index : Nat) (action : Tenure.Action μ)
  /-- What an agent knows changes, for it hears of the others. -/
  | inform (index : Nat) (own : ε)
  /-- The stop makes a step. -/
  | stop

/-! ## Steps -/

namespace Tenant

def office (t : Tenant μ ε) : Office μ ε := t.tenure.office

/-- The agent in its place. -/
def resident (plan : Plan) (index : Nat) (t : Tenant μ ε) : Resident (Office μ ε) μ :=
  Office.resident t.behavior plan.policy ⟨index⟩ plan.quantum

/-- Changes the agent's office. -/
def alter (f : Office μ ε → Office μ ε) (t : Tenant μ ε) : Tenant μ ε :=
  { t with tenure := t.tenure.alter f }

/-- The agent's task is queued. -/
def submit (t : Tenant μ ε) : Tenant μ ε :=
  t.alter fun p => { p with traffic := { p.traffic with queue := p.traffic.queue ++ [()] } }

end Tenant

/-- Whether an agent may be spawned, with which mailbox. -/
def Offer.vet (plan : Plan) (offer : Offer μ ε) : Except Fault Watermarks :=
  let capability := offer.capability.getD .isolated
  if Node.holdsState capability = false then .error (.violation (.unfitState capability))
  else
    let marks := offer.marks.getD plan.marks
    match marks.validate with
    | .error why => .error why
    | .ok _ => .ok marks

namespace StopCall

/-- How many walks through the register have passed a part of it. -/
def passed (part : Nat) : StopCall → Nat
  | waiting => 0
  | listing walked _ => if part < walked then 1 else 0
  | asking _ _ | draining | joining => 1
  | collecting walked _ => if part < walked then 2 else 1
  | clearing walked _ => if part < walked then 3 else 2
  | finishing _ _ | stopped => 3

/-- The stop goes on asking an agent to end, or turns to the next. -/
def asked (index : Nat) (rest : List Nat) : Option AskCall → StopCall
  | some after => .asking (index :: rest) after
  | none => .asking rest .looking

/-- The stop goes on ending an agent, or turns to the next. -/
def finished (index : Nat) (rest : List Nat) : Option Header.FinishCall → StopCall
  | some after => .finishing (index :: rest) after
  | none => .finishing rest .storing

/-- Whether the workers have come home. -/
def isJoined : StopCall → Bool
  | collecting _ _ | clearing _ _ | finishing _ _ | stopped => true
  | _ => false

end StopCall

namespace House

/-- A house that is open, without agents. -/
def opened : House μ ε := ⟨true, [], [], [], .waiting⟩

/-- Something happens to the agent in this place. -/
def alter (h : House μ ε) (index : Nat) (f : Tenant μ ε → Tenant μ ε) : House μ ε :=
  { h with tenants := h.tenants.modify index f }

/-- Whether there is an agent on the register in this place. -/
def isRegistered (h : House μ ε) (index : Nat) : Bool :=
  match h.tenants[index]? with
  | some t => t.office.isRegistered
  | none => false

/-- Who is on this part of the register. -/
def registered (plan : Plan) (h : House μ ε) (part : Nat) : List Nat :=
  (List.range h.tenants.length).filter fun index =>
    (plan.part index).val == part && h.isRegistered index

/-- A new agent on the register, whose task is not queued yet. -/
def newcomer (plan : Plan) (h : House μ ε) (offer : Offer μ ε) (marks : Watermarks) :
    Tenant μ ε where
  behavior := offer.behavior
  isCivil := offer.isCivil
  tenure := (Tenure.start marks offer.own).alter fun p =>
    { p with traffic := { p.traffic with queue := [] } }
  missed := h.stop.passed (plan.part h.tenants.length)

/-- A step of a spawn. -/
def spawn (plan : Plan) (h : House μ ε) (index : Nat) : SpawnCall μ ε → House μ ε
  | .looking offer =>
    if h.isOpen then
      match offer.vet plan with
      | .error why =>
        { h with spawns := replace h.spawns index none, answers := h.answers ++ [.error why] }
      | .ok marks => { h with spawns := replace h.spawns index (some (.enrolling offer marks)) }
    else
      { h with
        spawns := replace h.spawns index none
        answers := h.answers ++ [.error .spawnRejected] }
  | .enrolling offer marks =>
    { h with
      tenants := h.tenants ++ [h.newcomer plan offer marks]
      spawns := replace h.spawns index (some (.submitting h.tenants.length)) }
  | .submitting tenant =>
    { h.alter tenant (·.submit) with
      spawns := replace h.spawns index none
      answers := h.answers ++ [.ok tenant] }

/-- Whether this may happen to an agent, as far as the house is concerned. -/
def allows (h : House μ ε) : Tenure.Action μ → Bool
  | .outside action => action.isCommon
  | .pick => !h.stop.isJoined
  | .work => true

/-- The stop asks an agent to end, one step at a time. -/
def ask (h : House μ ε) (index : Nat) (rest : List Nat) (call : AskCall) : House μ ε :=
  match h.tenants[index]? with
  | none => { h with stop := .asking rest .looking }
  | some t =>
    { h.alter index (·.alter fun p => (call.step p).1) with
      stop := .asked index rest (call.step t.office).2 }

/-- The stop ends an agent, one step at a time. -/
def finish (h : House μ ε) (index : Nat) (rest : List Nat) (call : Header.FinishCall) :
    House μ ε :=
  match h.tenants[index]? with
  | none => { h with stop := .finishing rest .storing }
  | some t =>
    { h.alter index (·.alter fun p =>
        { p with traffic := { p.traffic with header := (call.step p.traffic.header).header } }) with
      stop := .finished index rest (call.step t.office.traffic.header).next }

/-- Clears a part of the register. -/
def clear (plan : Plan) (h : House μ ε) (part : Nat) : House μ ε :=
  { h with tenants := h.tenants.mapIdx fun index t =>
      if (plan.part index).val = part then t.alter (·.act .strike) else t }

/-- A step of the stop. -/
def halt (plan : Plan) (h : House μ ε) : House μ ε :=
  match h.stop with
  | .waiting => { h with isOpen := false, stop := .listing 0 [] }
  | .listing part seen =>
    if part < plan.parts then
      { h with stop := .listing (part + 1) (seen ++ h.registered plan part) }
    else { h with stop := .asking seen .looking }
  | .asking [] _ => { h with stop := .draining }
  | .asking (index :: rest) call => h.ask index rest call
  | .draining => { h with stop := .joining }
  | .joining =>
    if h.tenants.all fun t => t.tenure.runner == .away then { h with stop := .collecting 0 [] }
    else h
  | .collecting part seen =>
    if part < plan.parts then
      { h with stop := .collecting (part + 1) (seen ++ h.registered plan part) }
    else { h with stop := .clearing 0 seen }
  | .clearing part left =>
    if part < plan.parts then { h.clear plan part with stop := .clearing (part + 1) left }
    else { h with stop := .finishing left .storing }
  | .finishing [] _ => { h with stop := .stopped }
  | .finishing (index :: rest) call => h.finish index rest call
  | .stopped => h

def next (plan : Plan) (h : House μ ε) : Action μ ε → House μ ε
  | .callSpawn offer => { h with spawns := h.spawns ++ [.looking offer] }
  | .spawn index =>
    match h.spawns[index]? with
    | none => h
    | some call => h.spawn plan index call
  | .tenant index action =>
    if h.allows action then
      h.alter index fun t =>
        { t with tenure := t.tenure.next (t.resident plan index) action }
    else h
  | .inform index own => h.alter index (·.alter fun p => { p with own })
  | .stop => h.halt plan

/-- What comes of actions one after another. -/
def run (plan : Plan) (h : House μ ε) (actions : List (Action μ ε)) : House μ ε :=
  actions.foldl (next plan) h

/-! ## Spawns without interference -/

/-- What a spawn is answered that nobody interferes with. -/
def answer (plan : Plan) (h : House μ ε) (offer : Offer μ ε) : Except Fault Nat :=
  if h.isOpen then (offer.vet plan).map fun _ => h.tenants.length else .error .spawnRejected

/-- A house answers a spawn as a node does. -/
theorem answer_eq {μ' ε' : Type} (plan : Plan) (h : House μ ε) (offer : Offer μ ε)
    (n : Node μ' ε') (options : Node.SpawnOptions ε') (hopen : n.isRunning = h.isOpen)
    (hmarks : n.settings.mailbox = plan.marks) (hmailbox : options.mailbox = offer.marks)
    (hcapability : options.capability = offer.capability) :
    (n.spawn options).2.map (fun _ => h.tenants.length) = h.answer plan offer := by
  unfold Node.spawn answer Offer.vet Mailbox.open?
  rw [hopen, hmarks, hmailbox, hcapability]
  -- both look at the house first, then at the capability, then at the marks
  cases h.isOpen with
  | false => rfl
  | true =>
      dsimp only
      split
      · contradiction
      · split
        · rfl
        · cases (offer.marks.getD plan.marks).validate with
          | error why => rfl
          | ok _ => rfl

/-- Whom a spawn brings in that nobody interferes with. -/
def arrivals (plan : Plan) (h : House μ ε) (offer : Offer μ ε) : List (Tenant μ ε) :=
  if h.isOpen then
    match offer.vet plan with
    | .ok marks => [(h.newcomer plan offer marks).submit]
    | .error _ => []
  else []

/-- A change to the element just added is a change to it alone. -/
theorem modify_concat {γ : Type} (xs : List γ) (x : γ) (f : γ → γ) :
    (xs ++ [x]).modify xs.length f = xs ++ [f x] := by
  induction xs with
  | nil => rfl
  | cons y rest ih => exact congrArg (y :: ·) ih

/-- A spawn from its first step to its last. -/
theorem spawn_alone (plan : Plan) (h : House μ ε) (offer : Offer μ ε) :
    ∃ steps, h.run plan (.callSpawn offer :: List.replicate steps (.spawn h.spawns.length)) =
      { h with
        tenants := h.tenants ++ h.arrivals plan offer
        answers := h.answers ++ [h.answer plan offer] } := by
  cases hopen : h.isOpen with
  | false => exact ⟨1, by simp [run, next, spawn, answer, arrivals, hopen]⟩
  | true =>
      cases hvet : offer.vet plan with
      | error why =>
          exact ⟨1, by simp [run, next, spawn, answer, arrivals, hopen, hvet, Except.map]⟩
      | ok marks =>
          exact ⟨3, by simp [run, next, spawn, newcomer, answer, arrivals, hopen, hvet, Except.map,
            List.replicate, alter, modify_concat]⟩

end House

end Troupe
