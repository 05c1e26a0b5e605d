import Mathlib.Data.List.Basic
import Troupe.Promise

/-!
# A promise is kept once

Any number of resolvers offer values to one promise, and come and go; the awaiting side
takes, polls and asks. A poll looks at the slot, leaves its waker and looks again, and
others may act in between (`pollTake_eq_looks`), so a look and a waker left are requests
of their own too. Everything that was asked is kept on record.

* `move_serve` — the ways in which a request can move the slot;
* `telling_record` — so the slot is told by what was offered and what was handed out;
* `record_isSingle` — the first value offered is the only one ever handed out, at most
  once, and every question is answered accordingly.
-/

namespace Troupe

namespace Promise

variable {κ ω α : Type}

/-! ## The steps of a poll -/

/-- One look at the slot takes the value, or finds it gone, or finds nothing yet. -/
def look (p : Promise ω α) : Promise ω α × Option (Except Fault α) :=
  match p.slot with
  | .ready value => ({ p with slot := .taken }, some (.ok value))
  | .taken => (p, some (.error .consumed))
  | .pending => (p, none)

/-- Leaves a waker, in place of any other. -/
def register (p : Promise ω α) (w : ω) : Promise ω α := { p with waker := some w }

/-- What a poll answers after its last look. -/
def looked : Option (Except Fault α) → Poll (Except Fault α)
  | some result => .ready result
  | none => .pending

/-- A poll looks, and looks again behind its waker if there was nothing. -/
theorem pollTake_eq_looks (p : Promise ω α) (w : ω) :
    p.pollTake w =
      match p.look with
      | (p, some result) => (p, .ready result)
      | (p, none) => ((p.register w).look.1, looked (p.register w).look.2) := by
  cases hslot : p.slot with
  | pending => simp [pollTake, look, register, looked, hslot]
  | ready value => simp [pollTake, look, hslot]
  | taken => simp [pollTake, look, hslot]

/-! ## Requests on record -/

/-- A promise and the handles through which it can be resolved. -/
structure Contest (κ ω α : Type) where
  promise : Promise ω α
  resolvers : List κ

/-- What the parties to a promise can ask for. -/
inductive Request (κ ω α : Type) where
  | resolve (resolver : κ) (value : α)
  | isResolved (resolver : κ)
  | clone (resolver copy : κ)
  | drop (resolver : κ)
  | isReady
  | tryTake
  | poll (w : ω)
  /-- The first or the second look of a poll. -/
  | look
  /-- What a poll does between its looks. -/
  | register (w : ω)

/-- What they are answered. -/
inductive Reply (α : Type) where
  | resolved (first : Bool)
  | told (yes : Bool)
  | taken (value : Option α)
  | polled (result : Poll (Except Fault α))
  | looked (result : Option (Except Fault α))
  | done
  /-- The handle that was to do it is gone. -/
  | absent

/-- What a resolver is told about its offer. -/
def Reply.first? : Reply α → Option Bool
  | .resolved first => some first
  | _ => none

/-- The value that the awaiting side gets. -/
def Reply.handed? : Reply α → Option α
  | .taken value => value
  | .polled (.ready (.ok value)) | .looked (some (.ok value)) => some value
  | _ => none

namespace Contest

/-- A new promise with one resolver. -/
def start (first : κ) : Contest κ ω α := ⟨{}, [first]⟩

/-- What comes of a request to one of the handles. -/
def through [DecidableEq κ] (s : Contest κ ω α) (resolver : κ)
    (o : Outcome ω (Contest κ ω α) (Reply α)) : Outcome ω (Contest κ ω α) (Reply α) :=
  if resolver ∈ s.resolvers then o else ⟨s, [], .absent⟩

/-- Does what is asked for. -/
def serve [DecidableEq κ] (s : Contest κ ω α) :
    Request κ ω α → Outcome ω (Contest κ ω α) (Reply α)
  | .resolve resolver value =>
      let o := s.promise.resolve value
      s.through resolver ⟨{ s with promise := o.state }, o.effects, .resolved o.answer⟩
  | .isResolved resolver => s.through resolver ⟨s, [], .told s.promise.isResolved⟩
  | .clone resolver copy =>
      s.through resolver ⟨{ s with resolvers := s.resolvers ++ [copy] }, [], .done⟩
  | .drop resolver =>
      s.through resolver ⟨{ s with resolvers := s.resolvers.erase resolver }, [], .done⟩
  | .isReady => ⟨s, [], .told s.promise.isReady⟩
  | .tryTake =>
      let (promise, value) := s.promise.tryTake
      ⟨{ s with promise }, [], .taken value⟩
  | .poll w =>
      let (promise, result) := s.promise.pollTake w
      ⟨{ s with promise }, [], .polled result⟩
  | .look =>
      let (promise, result) := s.promise.look
      ⟨{ s with promise }, [], .looked result⟩
  | .register w => ⟨{ s with promise := s.promise.register w }, [], .done⟩

end Contest

/-- A request with its effects and its reply. -/
structure Entry (κ ω α : Type) where
  request : Request κ ω α
  effects : List (Effect ω)
  reply : Reply α

/-- The value that a live resolver offered. -/
def Entry.offered? (x : Entry κ ω α) : Option α :=
  match x.request, x.reply with
  | .resolve _ value, .resolved _ => some value
  | _, _ => none

/-- A promise with everything that was asked, oldest request first. -/
structure Record (κ ω α : Type) where
  contest : Contest κ ω α
  entries : List (Entry κ ω α)

namespace Record

/-- Serves a request and puts it on record. -/
def next [DecidableEq κ] (r : Record κ ω α) (request : Request κ ω α) : Record κ ω α :=
  let o := r.contest.serve request
  ⟨o.state, r.entries ++ [⟨request, o.effects, o.answer⟩]⟩

/-- The values offered, in order. -/
def offers (r : Record κ ω α) : List α := r.entries.filterMap Entry.offered?

/-- What the resolvers were answered, in order. -/
def firsts (r : Record κ ω α) : List Bool := r.entries.filterMap (·.reply.first?)

/-- The values handed out, in order. -/
def handed (r : Record κ ω α) : List α := r.entries.filterMap (·.reply.handed?)

end Record

/-- What the awaiting side is due: nothing before the first offer, then the value offered,
and an error once it got that. -/
def due : List α → List α → Option (Except Fault α)
  | [], _ => none
  | value :: _, [] => some (.ok value)
  | _ :: _, _ :: _ => some (.error .consumed)

/-- The record of a run of requests on a new promise. -/
def record [DecidableEq κ] (first : κ) (requests : List (Request κ ω α)) : Record κ ω α :=
  requests.foldl Record.next ⟨.start first, []⟩

/-! ## One request -/

/-- How a slot can move when one value or none is offered and one or none is handed out. -/
inductive Move : Slot α → Option α → Option α → Slot α → Prop where
  | still (slot : Slot α) : Move slot none none slot
  | first (value : α) : Move .pending (some value) none (.ready value)
  | late {slot : Slot α} (hslot : slot ≠ .pending) (value : α) : Move slot (some value) none slot
  | taking (value : α) : Move (.ready value) none (some value) .taken

/-- The first offer is told that it is the first. -/
theorem resolve_answer (p : Promise ω α) (value : α) :
    (p.resolve value).answer = !p.isResolved := by
  cases hresolved : p.isResolved with
  | true => rw [resolve_settled p value hresolved, Bool.not_true]
  | false =>
      have hslot : p.slot = .pending := by
        cases hs : p.slot with
        | pending => rfl
        | ready _ | taken => simp [isResolved, hs] at hresolved
      rw [(resolve_pending p value hslot).1, Bool.not_false]

/-- An offer fills the slot if nobody made one before, and is lost otherwise. -/
theorem move_resolve (p : Promise ω α) (value : α) :
    Move p.slot (some value) none (p.resolve value).state.slot := by
  cases hslot : p.slot with
  | pending =>
      rw [(resolve_pending p value hslot).2]
      exact .first value
  | ready _ | taken =>
      have hresolved : p.isResolved = true := by simp [isResolved, hslot]
      rw [resolve_settled p value hresolved, ← hslot]
      exact .late (by simp [hslot]) value

/-- Taking hands out what is there, and leaves an empty promise as it is. -/
theorem move_tryTake (p : Promise ω α) : Move p.slot none p.tryTake.2 p.tryTake.1.slot := by
  cases hslot : p.slot with
  | ready value =>
      simp only [tryTake, hslot]
      exact .taking value
  | pending | taken =>
      simp only [tryTake, hslot]
      exact .still _

/-- A look hands out what its answer carries. -/
theorem move_look (p : Promise ω α) :
    Move p.slot none (Reply.looked p.look.2).handed? p.look.1.slot := by
  cases hslot : p.slot with
  | ready value =>
      simp only [look, hslot, Reply.handed?]
      exact .taking value
  | pending | taken =>
      simp only [look, hslot, Reply.handed?]
      exact .still _

/-- A poll hands out what its answer carries. -/
theorem move_pollTake (p : Promise ω α) (w : ω) :
    Move p.slot none (Reply.polled (p.pollTake w).2).handed? (p.pollTake w).1.slot := by
  cases hslot : p.slot with
  | ready value =>
      simp only [pollTake, hslot, Reply.handed?]
      exact .taking value
  | pending | taken =>
      simp only [pollTake, hslot, Reply.handed?]
      exact .still _

/-! ## The slot and what is known of it -/

/-- A slot agrees with the values offered and the values handed out. -/
inductive Agrees : Slot α → List α → List α → Prop where
  | pending : Agrees .pending [] []
  | ready (value : α) (late : List α) : Agrees (.ready value) (value :: late) []
  | taken (value : α) (late : List α) : Agrees .taken (value :: late) [value]

/-- Whatever a move offers and hands out, it writes both down. -/
theorem Agrees.move {slot slot' : Slot α} {offers handed : List α} {offered got : Option α}
    (h : Agrees slot offers handed) (hmove : Move slot offered got slot') :
    Agrees slot' (offers ++ offered.toList) (handed ++ got.toList) := by
  -- each of the four moves, at each of the three stages at which it can happen
  cases hmove with
  | still =>
      rw [Option.toList_none, List.append_nil, List.append_nil]
      exact h
  | first value =>
      -- nobody made an offer before
      cases h
      exact .ready value []
  | late hslot value =>
      rw [Option.toList_none, List.append_nil]
      cases h with
      | pending => exact absurd rfl hslot
      | ready first late => exact .ready first (late ++ [value])
      | taken first late => exact .taken first (late ++ [value])
  | taking value =>
      rw [Option.toList_none, List.append_nil]
      cases h with
      | ready _ late => exact .taken value late

section Answers

variable {p : Promise ω α} {offers handed : List α}

/-- A promise is resolved as soon as there was an offer. -/
theorem Agrees.isResolved_eq (h : Agrees p.slot offers handed) :
    p.isResolved = !offers.isEmpty := by
  unfold isResolved
  generalize p.slot = slot at h ⊢
  cases h <;> rfl

/-- It is ready from the first offer on until its value is handed out. -/
theorem Agrees.isReady_eq (h : Agrees p.slot offers handed) :
    p.isReady = (!offers.isEmpty && handed.isEmpty) := by
  unfold isReady
  generalize p.slot = slot at h ⊢
  cases h <;> rfl

/-- Only the first value is ever taken, and only once. -/
theorem Agrees.tryTake_eq (h : Agrees p.slot offers handed) :
    p.tryTake.2 = if handed = [] then offers.head? else none := by
  unfold tryTake
  generalize p.slot = slot at h ⊢
  cases h <;> simp

/-- A look finds what is due after these offers, if nobody was handed it before. -/
theorem Agrees.look_eq (h : Agrees p.slot offers handed) : p.look.2 = due offers handed := by
  unfold look
  generalize p.slot = slot at h ⊢
  cases h <;> rfl

/-- At most one value is handed out: the one that was offered first. -/
theorem Agrees.handed_prefix {slot : Slot α} (h : Agrees slot offers handed) :
    handed <+: offers.take 1 := by
  cases h with
  | pending | ready => exact List.nil_prefix
  | taken value late => exact List.prefix_rfl

end Answers

/-- With nobody in between, the second look of a poll sees what the first one saw. -/
theorem pollTake_answer (p : Promise ω α) (w : ω) : (p.pollTake w).2 = looked p.look.2 := by
  rw [pollTake_eq_looks]
  cases hslot : p.slot with
  | pending => simp [look, register, hslot]
  | ready value => simp [look, looked, hslot]
  | taken => simp [look, looked, hslot]

/-! ## Every run -/

section Runs

variable [DecidableEq κ]

/-- Each request moves the slot in one of these ways, as its entry tells. -/
theorem move_serve (s : Contest κ ω α) (request : Request κ ω α) :
    let o := s.serve request
    let x : Entry κ ω α := ⟨request, o.effects, o.answer⟩
    Move s.promise.slot x.offered? o.answer.handed? o.state.promise.slot := by
  cases request with
  | resolve resolver value =>
      simp only [Contest.serve, Contest.through]
      -- a resolver that was dropped makes no offer
      split
      · exact move_resolve s.promise value
      · exact .still _
  | isResolved resolver | clone resolver copy | drop resolver =>
      simp only [Contest.serve, Contest.through]
      split
      · exact .still _
      · exact .still _
  | tryTake => exact move_tryTake s.promise
  | poll w => exact move_pollTake s.promise w
  | look => exact move_look s.promise
  | isReady | register w => exact .still _

/-- A resolver is answered whether the promise was still open. -/
theorem first_serve (s : Contest κ ω α) (request : Request κ ω α) :
    let o := s.serve request
    let x : Entry κ ω α := ⟨request, o.effects, o.answer⟩
    o.answer.first? = x.offered?.map fun _ => !s.promise.isResolved := by
  cases request with
  | resolve resolver value =>
      simp only [Contest.serve, Contest.through]
      split
      · exact congrArg some (resolve_answer s.promise value)
      · rfl
  | isResolved resolver | clone resolver copy | drop resolver =>
      simp only [Contest.serve, Contest.through]
      split
      · rfl
      · rfl
  | isReady | tryTake | poll w | look | register w => rfl

/-- A record tells what its slot holds, and that the first offer, and no other, was successful. -/
structure Record.Telling (r : Record κ ω α) : Prop where
  agrees : Agrees r.contest.promise.slot r.offers r.handed
  firsts_eq : r.firsts = r.offers.mapIdx fun k _ => k == 0

/-- A request adds its offer, its answer and what it hands out to the record. -/
theorem Record.Telling.next {r : Record κ ω α} (h : r.Telling) (request : Request κ ω α) :
    (r.next request).Telling := by
  let o := r.contest.serve request
  let x : Entry κ ω α := ⟨request, o.effects, o.answer⟩
  have hoffers : (r.next request).offers = r.offers ++ x.offered?.toList := by
    show (r.entries ++ [x]).filterMap Entry.offered? = _
    cases hx : x.offered? <;> simp [offers, hx]
  have hfirsts : (r.next request).firsts = r.firsts ++ o.answer.first?.toList := by
    show (r.entries ++ [x]).filterMap (·.reply.first?) = _
    cases hx : o.answer.first? <;> simp [firsts, x, hx]
  have hhanded : (r.next request).handed = r.handed ++ o.answer.handed?.toList := by
    show (r.entries ++ [x]).filterMap (·.reply.handed?) = _
    cases hx : o.answer.handed? <;> simp [handed, x, hx]
  constructor
  · rw [hoffers, hhanded]
    exact h.agrees.move (move_serve r.contest request)
  -- whether an offer is the first can be told from the slot and from the record alike
  · have hfirst : o.answer.first? = x.offered?.map fun _ => r.offers.isEmpty := by
      rw [first_serve r.contest request, h.agrees.isResolved_eq, Bool.not_not]
    rw [hfirsts, hoffers, hfirst, h.firsts_eq]
    cases x.offered? with
    | none => simp
    | some value => cases r.offers <;> simp [List.mapIdx_append]

/-- After every run. -/
theorem telling_record (first : κ) (requests : List (Request κ ω α)) :
    (record first requests).Telling := by
  suffices h : ∀ r : Record κ ω α, r.Telling → (requests.foldl Record.next r).Telling from
    h _ ⟨.pending, rfl⟩
  induction requests with
  | nil => exact fun r h => h
  | cons request rest ih => exact fun r h => ih (r.next request) (h.next request)

/-- Whatever is asked next of the promise of a record, the answer follows the first offer. -/
structure Record.IsSingle (r : Record κ ω α) : Prop where
  /-- Of all offers so far the first was successful, and no other. -/
  firsts_eq : r.firsts = r.offers.mapIdx fun k _ => k == 0
  /-- The next one will be if it is the first. -/
  resolve_eq : ∀ resolver ∈ r.contest.resolvers, ∀ value,
    (r.contest.serve (.resolve resolver value)).answer = .resolved r.offers.isEmpty
  isResolved_eq : ∀ resolver ∈ r.contest.resolvers,
    (r.contest.serve (.isResolved resolver)).answer = .told !r.offers.isEmpty
  /-- The awaiting side sees the value from the first offer until it gets it. -/
  isReady_eq : (r.contest.serve .isReady).answer = .told (!r.offers.isEmpty && r.handed.isEmpty)
  tryTake_eq : (r.contest.serve .tryTake).answer =
    .taken (if r.handed = [] then r.offers.head? else none)
  poll_eq : ∀ w, (r.contest.serve (.poll w)).answer = .polled (looked (due r.offers r.handed))
  look_eq : (r.contest.serve .look).answer = .looked (due r.offers r.handed)
  /-- No value is handed out but the first that was offered, and that once. -/
  handed_prefix : r.handed <+: r.offers.take 1

/-- A promise is kept once: whatever its resolvers and its awaiting side ask for, in whatever
order, and whoever acts between the looks of a poll. -/
theorem record_isSingle (first : κ) (requests : List (Request κ ω α)) :
    (record first requests).IsSingle := by
  obtain ⟨h, hfirsts⟩ := telling_record first requests
  generalize record first requests = r at h hfirsts ⊢
  have through : ∀ resolver ∈ r.contest.resolvers, ∀ o, r.contest.through resolver o = o :=
    fun _ hlive _ => if_pos hlive
  -- each answer is that of the slot, and the slot is what the record says
  constructor
  · exact hfirsts
  · intro resolver hlive value
    simp only [Contest.serve, through resolver hlive]
    rw [resolve_answer, h.isResolved_eq, Bool.not_not]
  · intro resolver hlive
    simp only [Contest.serve, through resolver hlive]
    rw [h.isResolved_eq]
  · exact congrArg Reply.told h.isReady_eq
  · exact congrArg Reply.taken h.tryTake_eq
  · intro w
    simp only [Contest.serve]
    rw [pollTake_answer, h.look_eq]
  · exact congrArg Reply.looked h.look_eq
  · exact h.handed_prefix

/-- Two resolvers offer, the second one in the middle of a poll; the first one is a copy that is
dropped before the value is taken. -/
example :
    let r := record (ω := Unit) 0 [.clone 0 1, .look, .resolve 1 7, .register (), .resolve 0 8,
      .drop 1, .look, .tryTake, .poll (), .isResolved 0, .isReady]
    r.offers = [7, 8] ∧ r.firsts = [true, false] ∧ r.handed = [7] ∧
      due r.offers r.handed = some (.error .consumed) := by
  decide

end Runs

end Promise

end Troupe
