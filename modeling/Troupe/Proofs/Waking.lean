import Troupe.Proofs.Channel.Lifecycle
import Troupe.Proofs.History
import Troupe.Proofs.Promise.Waiting

/-!
# Whoever waits is woken

A poll that finds nothing leaves its waker and is told to wait. The waker may then be replaced by
that of a later poll, or be fired; as long as neither has happened, somebody relies on it. What
polls and wakes are is read off the records of mailboxes, channels and promises alone.

* `Attentive.serve` — a mailbox keeps the waker that is relied on, and has nothing to hand out;
* `relayed_perform` — a channel does so too, since it asks its mailbox for one thing at most;
* `minds_diary` — and so does a promise;
* `awaited_is_woken` — so the next thing that comes wakes whoever waits for it.
-/

namespace Troupe

variable {κ ω μ α : Type}

/-! ## What is relied on -/

/-- What one request shows of waiting and waking. -/
structure Sign (ω : Type) where
  /-- Of a poll the waker that it left, if it has to wait. -/
  polled : Option (Option ω) := none
  /-- Whether something came that was waited for. -/
  isArrival : Bool := false
  effects : List (Effect ω) := []

/-- The last poll left this waker and has to wait, and the waker has not been fired since. -/
def IsAwaited (w : ω) (signs : List (Sign ω)) : Prop :=
  Since (fun x => x.polled = some (some w) ∧ w ∉ wakesOf x.effects)
    (fun x => x.polled.isSome = true ∨ w ∈ wakesOf x.effects) signs

instance [DecidableEq ω] (w : ω) (signs : List (Sign ω)) : Decidable (IsAwaited w signs) :=
  inferInstanceAs (Decidable (Since _ _ _))

theorem not_isAwaited_nil (w : ω) : ¬ IsAwaited w [] := not_since_nil

section Snoc

variable {w : ω} {signs : List (Sign ω)} {x : Sign ω}

/-- Between polls a waker is relied on until it is fired. -/
theorem isAwaited_snoc_of_none (hx : x.polled = none) :
    IsAwaited w (signs ++ [x]) ↔ IsAwaited w signs ∧ w ∉ wakesOf x.effects := by
  rw [IsAwaited, since_snoc]
  simp [IsAwaited, hx]

/-- After a poll no other waker is relied on than the one that it left. -/
theorem isAwaited_snoc_of_poll {left : Option ω} (hx : x.polled = some left) :
    IsAwaited w (signs ++ [x]) ↔ left = some w ∧ w ∉ wakesOf x.effects := by
  rw [IsAwaited, since_snoc]
  simp [hx]

end Snoc

/-! ## Mailboxes -/

namespace Mailbox

/-- What an entry shows of waiting and waking. -/
def Entry.sign (x : Entry ω μ) : Sign ω where
  polled :=
    match x.request, x.reply with
    | .poll w, .polled .pending => some (some w)
    | .poll _, _ => some none
    | _, _ => none
  isArrival :=
    match x.reply with
    | .sent (.ok _) => true
    | _ => false
  effects := x.effects

/-- The mailbox is open and empty, and will fire this waker next. -/
structure Minds (w : ω) (m : Mailbox ω μ) : Prop where
  queue_eq : m.queue = []
  isOpen : m.isClosed = false
  receiver_eq : m.receiver = some w

/-- A mailbox minds whoever waits. -/
structure Attentive (m : Mailbox ω μ) (signs : List (Sign ω)) : Prop where
  settled : m.Settled
  minds : ∀ w, IsAwaited w signs → m.Minds w

/-- The sign of a request. -/
def sign (m : Mailbox ω μ) (request : Request ω μ) : Sign ω :=
  Entry.sign ⟨request, (m.serve request).effects, (m.serve request).answer⟩

/-- Whatever is asked of a mailbox, everybody who still waits afterwards is minded. -/
theorem Attentive.serve {m : Mailbox ω μ} {signs : List (Sign ω)} (h : m.Attentive signs)
    (request : Request ω μ) : (m.serve request).state.Attentive (signs ++ [m.sign request]) := by
  have hserved := served h.settled request
  refine ⟨hserved.settled h.settled, fun w hw => ?_⟩
  simp only [sign, Entry.sign] at hw
  generalize m.serve request = o at hserved hw
  cases hserved with
  | closed | nothing =>
      rw [isAwaited_snoc_of_none rfl] at hw
      exact h.minds w hw.1
  -- a refusal for want of room is counted, and touches neither queue nor waker
  | full =>
      rw [isAwaited_snoc_of_none rfl] at hw
      obtain ⟨hqueue, hopen, hreceiver⟩ := h.minds w hw.1
      exact ⟨hqueue, hopen, hreceiver⟩
  | admitted | shut =>
      -- the waker that is minded is fired, so nobody relies on it any more
      rw [isAwaited_snoc_of_none rfl] at hw
      obtain ⟨hwaits, hfired⟩ := hw
      rw [(h.minds w hwaits).receiver_eq] at hfired
      simp [wakesOf_append] at hfired
  | taken e rest hqueue =>
      -- who waits has seen the queue empty, and nothing came since
      rw [isAwaited_snoc_of_none rfl] at hw
      exact nomatch (h.minds w hw.1).queue_eq.symm.trans hqueue
  | waiting own hqueue =>
      -- at the end of the stream a poll is answered, and nobody has to wait
      by_cases hdrained : m.isDrained = true
      · simp only [hdrained, if_true] at hw
        rw [isAwaited_snoc_of_poll rfl] at hw
        exact nomatch hw.1
      · simp only [hdrained] at hw
        have hpolled := (isAwaited_snoc_of_poll rfl).mp hw
        obtain rfl : own = w := Option.some.inj hpolled.1
        rw [isDrained_of_nil h.settled hqueue] at hdrained
        exact ⟨hqueue, Bool.eq_false_iff.mpr hdrained, rfl⟩
  | polled =>
      rw [isAwaited_snoc_of_poll rfl] at hw
      exact nomatch hw.1

/-- Who is minded is woken by what comes next, and by nothing else; then nobody is minded. -/
theorem Minds.wakesOf_eq {m : Mailbox ω μ} {w : ω} (h : m.Minds w) {request : Request ω μ}
    {o : Outcome ω (Mailbox ω μ) (Reply μ)} (hserved : Served m request o) :
    if (Entry.sign ⟨request, o.effects, o.answer⟩).isArrival || o.state.isClosed then
      wakesOf o.effects = [w] ∧ o.state.receiver = none
    else wakesOf o.effects = [] := by
  obtain ⟨hqueue, hopen, hreceiver⟩ := h
  cases hserved with
  | closed _ hc => exact nomatch hopen.symm.trans hc
  | full | nothing => simp [Entry.sign, reject, hopen, wakesOf]
  | admitted => simp [Entry.sign, wakesOf_append, hreceiver]
  | taken _ _ hq | polled _ _ _ hq => exact nomatch hqueue.symm.trans hq
  | waiting => simp [Entry.sign, register, hopen, wakesOf]
  | shut => simp [Entry.sign, hreceiver]

theorem attentive_open? {marks : Watermarks} {m : Mailbox ω μ} (hopen : open? marks = .ok m) :
    m.Attentive [] := by
  obtain ⟨-, rfl⟩ := (open?_eq_ok_iff marks m).mp hopen
  exact ⟨settled_ofMarks marks, fun w hw => absurd hw (not_isAwaited_nil w)⟩

/-- Whoever waits finds the mailbox empty. -/
theorem Minds.isEmpty {m : Mailbox ω μ} {w : ω} (h : m.Minds w) (hm : m.Settled) :
    m.isEmpty = true := by
  have hlength : m.length = 0 := by rw [length, hm.reserved_eq, h.queue_eq, List.length_nil]
  simp [Mailbox.isEmpty, hlength]

/-- A message that is refused wakes nobody. -/
theorem effects_of_refused {m : Mailbox ω μ} (hm : m.Settled) {e : Envelope μ}
    {refusal : Refusal (Envelope μ)}
    (hrefused : (m.serve (.enqueue e)).answer = .sent (.error refusal)) :
    (m.serve (.enqueue e)).effects = [] := by
  have hserved := served hm (.enqueue e)
  generalize m.serve (.enqueue e) = o at hserved hrefused
  cases hserved with
  | closed | full => rfl
  | admitted => simp at hrefused

/-- What the entries of a record show. -/
def Record.signs (r : Record ω μ) : List (Sign ω) := r.entries.map Entry.sign

/-- Along every run of requests the mailbox minds the one who waits. -/
theorem attentive_record {marks : Watermarks} {m : Mailbox ω μ} (hopen : open? marks = .ok m)
    (requests : List (Request ω μ)) :
    (record m requests).mailbox.Attentive (record m requests).signs := by
  refine record_invariant (P := fun r => r.mailbox.Attentive r.signs) (attentive_open? hopen) ?_
    requests
  intro r request hr
  have hsigns : (r.next request).signs = r.signs ++ [r.mailbox.sign request] := by
    simp [Record.signs, Record.next, sign]
  rw [hsigns]
  exact hr.serve request

/-- Whoever waits for a message waits at an open and empty mailbox, and is woken, and nobody else,
by the next message that gets in, or by the end. -/
structure Record.WakesAwaited (r : Record ω μ) : Prop where
  idle : ∀ w, IsAwaited w r.signs →
    r.mailbox.queue = [] ∧ r.mailbox.isEmpty = true ∧ r.mailbox.isClosed = false
  woken : ∀ w, IsAwaited w r.signs → ∀ request, let o := r.mailbox.serve request
    if (r.mailbox.sign request).isArrival || o.state.isClosed then
      wakesOf o.effects = [w] ∧ o.state.receiver = none
    else wakesOf o.effects = []
  refused : ∀ e refusal, (r.mailbox.serve (.enqueue e)).answer = .sent (.error refusal) →
    (r.mailbox.serve (.enqueue e)).effects = []

/-- Everything that is promised to those who wait follows from their being minded. -/
theorem Attentive.wakesAwaited {r : Record ω μ} (h : r.mailbox.Attentive r.signs) :
    r.WakesAwaited where
  idle := fun w hw =>
    ⟨(h.minds w hw).queue_eq, (h.minds w hw).isEmpty h.settled, (h.minds w hw).isOpen⟩
  woken := fun w hw request => (h.minds w hw).wakesOf_eq (served h.settled request)
  refused := fun _ _ hrefused => effects_of_refused h.settled hrefused

end Mailbox

/-! ## Channels -/

namespace Channel

/-- What an entry shows of waiting and waking. A wait for a limited time is a poll, too: it is
over when it has found something. -/
def Entry.sign (x : Entry κ ω μ) : Sign ω where
  polled :=
    match x.demand, x.result with
    | _, .replied .absent => none
    | .ask (.poll w), .replied (.polled .pending) => some (some w)
    | .ask (.poll _), _ => some none
    | .receiveWithin w _ _ _, .waited none
    | .receiveWithin w _ _ _, .waited (some (.error (.awaitTimeout _))) => some (some w)
    | .receiveWithin .., _ => some none
    | _, _ => none
  isArrival :=
    match x.result with
    | .replied (.sent (.ok _)) => true
    | _ => false
  effects := x.effects

/-- What a demand does to the mailbox of a channel, and what it shows. -/
inductive Relayed (m : Mailbox ω μ) : Mailbox ω μ → Sign ω → Prop where
  | untouched : Relayed m m {}
  | asked (request : Mailbox.Request ω μ) : Relayed m (m.serve request).state (m.sign request)

/-- The last handle closes the mailbox, any other does nothing to it. -/
theorem relayed_release (c : Channel κ ω μ) :
    Relayed c.mailbox c.release.state.mailbox { effects := c.release.effects } := by
  unfold release
  split
  · exact .asked .close
  · exact .untouched

/-- What a channel does to its mailbox is one request, or nothing. -/
theorem Relayed.attentive {m m' : Mailbox ω μ} {x : Sign ω} (h : Relayed m m' x)
    {signs : List (Sign ω)} (hm : m.Attentive signs) : m'.Attentive (signs ++ [x]) := by
  cases h with
  | untouched =>
      refine ⟨hm.settled, fun w hw => ?_⟩
      exact hm.minds w ((isAwaited_snoc_of_none rfl).mp hw).1
  | asked request => exact hm.serve request

/-- What a channel does to its mailbox fires the waker that is minded if the request does. -/
theorem Relayed.wakesOf_eq {m m' : Mailbox ω μ} {x : Sign ω} (h : Relayed m m' x)
    (hm : m.Settled) {w : ω} (hw : m.Minds w) :
    if x.isArrival || m'.isClosed then wakesOf x.effects = [w] ∧ m'.receiver = none
    else wakesOf x.effects = [] := by
  cases h with
  | untouched => simp [hw.isOpen, wakesOf]
  | asked request => exact hw.wakesOf_eq (Mailbox.served hm request)

variable [DecidableEq κ] [Transferable μ]

def sign (c : Channel κ ω μ) (demand : Demand κ ω μ) : Sign ω :=
  Entry.sign ⟨demand, (c.perform demand).effects, (c.perform demand).answer⟩

/-- A message that may not be sent, or whose handle is gone, never reaches the mailbox. -/
theorem relayed_send (c : Channel κ ω μ) (handle : κ) (message : μ) :
    Relayed c.mailbox (c.perform (.ask (.send handle message))).state.mailbox
      (c.sign (.ask (.send handle message))) := by
  simp only [sign, perform, serve]
  cases hlive : c.handles.get? handle with
  | none =>
      rw [send?_gone hlive]
      exact .untouched
  | some identity =>
      cases hfit : (Transferable.capability message).isTransferable with
      | false =>
          rw [send?_local hlive hfit]
          exact .untouched
      | true =>
          let e : Envelope μ := ⟨message, Transferable.capability message, identity, 0⟩
          have hsent := Relayed.asked (m := c.mailbox) (.enqueue e)
          rw [send?_fit hlive hfit]
          simp only [Option.map_some, orAbsent, reworded, settle, Entry.sign]
          simp only [Mailbox.sign, Mailbox.serve, Mailbox.Entry.sign] at hsent
          cases hanswer : (c.mailbox.enqueue e).answer with
          | ok status | error refusal =>
              rw [hanswer] at hsent
              exact hsent

/-- A wait with a limit is one poll of the mailbox, wherever its readings end. -/
theorem relayed_receiveWithin (c : Channel κ ω μ) (w : ω) (allowed : Span) (started : Instant)
    (readings : List Instant) :
    Relayed c.mailbox (c.perform (.receiveWithin w allowed started readings)).state.mailbox
      (c.sign (.receiveWithin w allowed started readings)) := by
  simp only [sign, perform]
  split
  · have hpolled := Relayed.asked (m := c.mailbox) (.poll w)
    rw [receiveWithin_eq]
    simp only [reworded, Entry.sign, poll, settle]
    simp only [Mailbox.sign, Mailbox.serve, Mailbox.Entry.sign] at hpolled
    cases hanswer : (c.mailbox.pollDequeue w).answer with
    -- something was found, or the end
    | ready e =>
        rw [hanswer] at hpolled
        cases e <;> exact hpolled
    | pending =>
        -- the readings decide whether the wait is over, but the waker is left in either case
        rw [hanswer] at hpolled
        simp only [waited]
        cases readings.any (deadlineAfter started allowed ≤ ·) with
        | true | false => exact hpolled
  · exact .untouched

/-- Every demand asks one thing of the mailbox at most. The handles are the channel's own matter. -/
theorem relayed_perform (c : Channel κ ω μ) (demand : Demand κ ω μ) :
    Relayed c.mailbox (c.perform demand).state.mailbox (c.sign demand) := by
  cases demand with
  | receiveWithin w allowed started readings =>
      exact c.relayed_receiveWithin w allowed started readings
  | ask request =>
      cases request with
      | send handle message => exact c.relayed_send handle message
      -- a copy that takes the place of a handle in use drops that handle
      | clone handle copy =>
          simp only [sign, perform, serve, clone?]
          cases c.handles.get? handle with
          | none => exact .untouched
          | some identity =>
              simp only [Option.map_some, orAbsent]
              split
              · exact relayed_release
                  { c with count := c.count + 1, handles := c.handles.insert copy identity }
              · exact .untouched
      -- whose messages they are does not concern the mailbox
      | onBehalfOf handle agent =>
          simp only [sign, perform, serve, onBehalfOf?]
          cases c.handles.get? handle with
          | none | some _ => exact .untouched
      | dropSender handle =>
          simp only [sign, perform, serve, dropSender?]
          cases c.handles.get? handle with
          | none => exact .untouched
          | some identity =>
              exact relayed_release { c with handles := c.handles.erase handle }
      -- the receiving end closes the mailbox when it goes
      | dropReceiver =>
          simp only [sign, perform, serve, dropReceiver?]
          cases c.receiving with
          | false => exact .untouched
          | true => exact .asked .close
      | tryReceive =>
          simp only [sign, perform, serve]
          split
          · exact .asked .dequeue
          · exact .untouched
      | poll w =>
          simp only [sign, perform, serve]
          split
          · have hpolled := Relayed.asked (m := c.mailbox) (.poll w)
            simp only [reworded, Entry.sign, poll, settle]
            simp only [Mailbox.sign, Mailbox.serve, Mailbox.Entry.sign] at hpolled
            cases hanswer : (c.mailbox.pollDequeue w).answer with
            | ready e | pending =>
                rw [hanswer] at hpolled
                exact hpolled
          · exact .untouched

/-- What the entries of a record show. -/
def Record.signs (r : Record κ ω μ) : List (Sign ω) := r.entries.map Entry.sign

/-- A channel minds its receiver as its mailbox does. -/
theorem attentive_record {marks : Watermarks} {first : κ} {c : Channel κ ω μ}
    (hopen : open? marks first = .ok c) (demands : List (Demand κ ω μ)) :
    (record c demands).channel.mailbox.Attentive (record c demands).signs := by
  have hmailbox : c.mailbox.Attentive ([] : List (Sign ω)) := by
    unfold open? at hopen
    split at hopen
    · next m hm =>
        obtain rfl := Except.ok.inj hopen
        exact Mailbox.attentive_open? hm
    · exact nomatch hopen
  -- the induction is on the demands, from any record that is attentive already
  suffices h : ∀ r : Record κ ω μ, r.channel.mailbox.Attentive r.signs →
      let r := demands.foldl Record.next r
      r.channel.mailbox.Attentive r.signs from h ⟨c, []⟩ hmailbox
  induction demands with
  | nil => exact fun r h => h
  | cons demand rest ih =>
      intro r h
      apply ih (r.next demand)
      have hsigns : (r.next demand).signs = r.signs ++ [r.channel.sign demand] := by
        simp [Record.signs, Record.next, sign]
      rw [hsigns]
      exact (r.channel.relayed_perform demand).attentive h

/-- Whoever waits at the receiving end of a channel is woken in the same way, be it by a message
or because the last handle or the receiving end is dropped. -/
structure Record.WakesAwaited (r : Record κ ω μ) : Prop where
  idle : ∀ w, IsAwaited w r.signs → r.channel.mailbox.queue = [] ∧
    r.channel.mailbox.isEmpty = true ∧ r.channel.mailbox.isClosed = false
  woken : ∀ w, IsAwaited w r.signs → ∀ demand, let o := r.channel.perform demand
    if (r.channel.sign demand).isArrival || o.state.mailbox.isClosed then
      wakesOf o.effects = [w] ∧ o.state.mailbox.receiver = none
    else wakesOf o.effects = []
  refused : ∀ handle message refusal,
    (r.channel.perform (.ask (.send handle message))).answer = .replied (.sent (.error refusal)) →
      (r.channel.perform (.ask (.send handle message))).effects = []

/-- A send that a channel refuses wakes nobody. -/
theorem effects_of_refused {c : Channel κ ω μ} (hm : c.mailbox.Settled) {handle : κ} {message : μ}
    {refusal : Refusal μ}
    (hrefused : (c.perform (.ask (.send handle message))).answer =
      .replied (.sent (.error refusal))) :
    (c.perform (.ask (.send handle message))).effects = [] := by
  simp only [perform, serve] at hrefused ⊢
  cases hsend : c.send? handle message with
  | none => rfl
  | some o =>
      have hsending := sending hm hsend
      simp only [hsend, Option.map_some, orAbsent, reworded] at hrefused ⊢
      cases hsending with
      | forbidden | closed | full => rfl
      | accepted _ _ _ _ status hanswer => simp [hanswer] at hrefused

/-- What is promised to the receiver of a channel is promised by its mailbox. -/
theorem wakesAwaited_of_attentive {r : Record κ ω μ}
    (h : r.channel.mailbox.Attentive r.signs) : r.WakesAwaited where
  idle := fun w hw =>
    ⟨(h.minds w hw).queue_eq, (h.minds w hw).isEmpty h.settled, (h.minds w hw).isOpen⟩
  woken := fun w hw demand =>
    (r.channel.relayed_perform demand).wakesOf_eq h.settled (h.minds w hw)
  refused := fun _ _ _ hrefused => effects_of_refused h.settled hrefused

end Channel

/-! ## Promises -/

namespace Promise

namespace Wait

/-- What a page shows of waiting and waking. A poll with a limit that comes too late has left its
waker, too. -/
def Page.sign (x : Page ω α) : Sign ω where
  polled :=
    match x.event with
    | .poll _ | .pollTimeout .. => some x.left?
    | _ => none
  isArrival :=
    match x.reply with
    | .resolved first => first
    | _ => false
  effects := x.effects

/-- Nothing is there yet, and this waker will be fired next. -/
structure Minds (w : ω) (s : Wait ω α) : Prop where
  slot_eq : s.promise.slot = .pending
  waker_eq : s.promise.waker = some w

/-- A poll leaves its waker only where there is nothing to be had. -/
theorem slot_of_left {s : Wait ω α} {event : Event ω α} {w : ω}
    (hleft : (s.page event).left? = some w) :
    (s.perform event).state.promise.slot = .pending := by
  cases event with
  | poll own =>
      cases hslot : s.promise.slot with
      | pending => simp [perform, pollTake, hslot]
      | ready _ | taken => simp [page, Page.left?, perform, pollTake, hslot] at hleft
  | pollTimeout own allowed looking registering =>
      have h := s.timed own allowed looking registering
      simp only [perform, page, Page.left?] at hleft ⊢
      generalize s.promise.pollTimeout _ _ _ _ _ _ = o at h hleft
      cases h with
      | value | gone => cases hleft
      -- in time or not, the poll has found nothing
      | late hslot | again hslot | first hslot => exact hslot
  | _ => cases hleft

/-- A page shows the waker that its poll has left. -/
theorem left_of_polled {x : Page ω α} {w : ω} (hpolled : x.sign.polled = some (some w)) :
    x.left? = some w := by
  obtain ⟨event, began, ended, effects, reply, alarms⟩ := x
  cases event with
  | poll | pollTimeout => exact Option.some.inj hpolled
  | _ => exact nomatch hpolled

/-- The waker that was left last is the one that will be fired. -/
theorem minds_of_left {s : Wait ω α} {event : Event ω α} {w : ω}
    (hleft : (s.page event).left? = some w) : (s.perform event).state.Minds w := by
  have hslot := slot_of_left hleft
  obtain ⟨-, hwaker⟩ := s.waker_perform event hslot
  exact ⟨hslot, by rw [hwaker, hleft, Option.some_or]⟩

/-- Whoever is minded stays so until somebody else polls or the waker is fired. -/
theorem Minds.perform {s : Wait ω α} {w : ω} (h : s.Minds w) {event : Event ω α}
    (hpolled : (s.page event).sign.polled = none)
    (hfired : w ∉ wakesOf (s.page event).sign.effects) : (s.perform event).state.Minds w := by
  obtain ⟨hslot, hwaker⟩ := h
  cases event with
  -- the first offer fires the waker
  | resolve value => simp [page, Page.sign, Wait.perform, resolve, hslot, hwaker] at hfired
  | tryTake => simpa [Wait.perform, tryTake, hslot] using Minds.mk hslot hwaker
  | poll | pollTimeout => cases hpolled
  | book | elapse | pass => exact ⟨hslot, hwaker⟩

end Wait

namespace Diary

/-- What the pages of a diary show. -/
def signs (r : Diary ω α) : List (Sign ω) := r.pages.map Wait.Page.sign

/-- Whoever waits for a promise is minded, whatever is done to it one after another. -/
theorem minds_diary (now : Instant) (events : List (Wait.Event ω α)) :
    ∀ w, IsAwaited w (diary now events).signs → (diary now events).wait.Minds w := by
  -- as for channels, from any diary in which they are minded
  suffices h : ∀ r : Diary ω α, (∀ w, IsAwaited w r.signs → r.wait.Minds w) →
      let r := events.foldl next r
      ∀ w, IsAwaited w r.signs → r.wait.Minds w from
    h ⟨.start now, []⟩ fun w hw => absurd hw (not_isAwaited_nil w)
  induction events with
  | nil => exact fun r h => h
  | cons event rest ih =>
      intro r h
      apply ih (r.next event)
      intro w hw
      have hsigns : (r.next event).signs = r.signs ++ [(r.wait.page event).sign] := by
        simp [signs, next]
      rw [hsigns] at hw
      -- a poll makes its own waker the one that waits; everything else leaves who waits alone
      cases hpolled : (r.wait.page event).sign.polled with
      | none =>
          obtain ⟨hwaits, hfired⟩ := (isAwaited_snoc_of_none hpolled).mp hw
          exact (h w hwaits).perform hpolled hfired
      | some left =>
          obtain ⟨rfl, -⟩ := (isAwaited_snoc_of_poll hpolled).mp hw
          exact Wait.minds_of_left (Wait.left_of_polled hpolled)

/-- Whoever waits for a promise waits for its first value, and is woken by it, and nobody else;
what is offered later wakes nobody. -/
structure WakesAwaited (r : Diary ω α) : Prop where
  idle : ∀ w, IsAwaited w r.signs → r.wait.promise.isResolved = false
  woken : ∀ w, IsAwaited w r.signs → ∀ value, let o := r.wait.perform (.resolve value)
    (r.wait.page (.resolve value)).sign.isArrival = true ∧ o.effects = [.wake w] ∧
      o.state.promise.waker = none
  refused : ∀ value, r.offers ≠ [] → let o := r.wait.perform (.resolve value)
    (r.wait.page (.resolve value)).sign.isArrival = false ∧ o.effects = []

/-- What is promised to those who wait follows. -/
theorem wakesAwaited_diary (now : Instant) (events : List (Wait.Event ω α)) :
    (diary now events).WakesAwaited where
  idle := fun w hw => by
    rw [isResolved, (minds_diary now events w hw).slot_eq]
  woken := fun w hw value => by
    obtain ⟨hslot, hwaker⟩ := minds_diary now events w hw
    simp [Wait.page, Wait.Page.sign, Wait.perform, resolve, hslot, hwaker, Effect.wakes]
  refused := fun value hoffers => by
    have h := (telling_diary now events).agrees
    have hresolved : (diary now events).wait.promise.isResolved = true := by
      rw [h.isResolved_eq]
      simpa using hoffers
    simp [Wait.page, Wait.Page.sign, Wait.perform, resolve_settled _ value hresolved]

end Diary

end Promise

/-- A waker that a poll left is not forgotten: as long as it has been neither replaced nor fired
there is nothing to be had, and what comes next fires it once, and no other. That holds of
mailboxes, of channels and of promises, whatever is asked of them, one thing after another. -/
theorem awaited_is_woken [DecidableEq κ] [Transferable μ] :
    (∀ (marks : Watermarks) (m : Mailbox ω μ), Mailbox.open? marks = .ok m →
      ∀ requests, (Mailbox.record m requests).WakesAwaited) ∧
    (∀ (marks : Watermarks) (first : κ) (c : Channel κ ω μ),
      Channel.open? marks first = .ok c →
        ∀ demands, (Channel.record c demands).WakesAwaited) ∧
    (∀ (now : Instant) (events : List (Promise.Wait.Event ω α)),
      (Promise.diary now events).WakesAwaited) := by
  refine ⟨?_, ?_, Promise.Diary.wakesAwaited_diary⟩
  · intro marks m hopen requests
    exact (Mailbox.attentive_record hopen requests).wakesAwaited
  · intro marks first c hopen demands
    exact Channel.wakesAwaited_of_attentive (Channel.attentive_record hopen demands)

/-- Two receivers poll a mailbox in turn, one polls a channel from which it took a message, and
one polls a promise after a poll of another that came too late. -/
theorem awaited_is_woken_in_turn :
    let marks : Watermarks := ⟨2, 2, 0⟩
    let e : Envelope Payload := ⟨.plain, .isolated, none, 0⟩
    let c : Channel Nat Nat Payload := ⟨.ofMarks marks, 1, Table.empty.insert 0 none, true⟩
    let r := Mailbox.record (.ofMarks marks : Mailbox Nat Payload)
      [.poll 5, .enqueue e, .poll 5, .poll 6, .poll 7, .dequeue]
    let q := Channel.record c [.ask (.send 0 .plain), .ask .tryReceive, .ask (.poll 8)]
    let p : Promise.Diary Nat Nat :=
      Promise.diary ⟨0⟩ [.pollTimeout 3 ⟨0⟩ ⟨1⟩ ⟨0⟩, .poll 4]
    (Mailbox.open? marks = .ok (.ofMarks marks : Mailbox Nat Payload) ∧ r.WakesAwaited ∧
        IsAwaited 7 r.signs ∧ ¬ IsAwaited 6 r.signs) ∧
      (Channel.open? marks 0 = .ok c ∧ q.WakesAwaited ∧ IsAwaited 8 q.signs) ∧
      (p.WakesAwaited ∧ IsAwaited 4 p.signs) := by
  have h := awaited_is_woken (κ := Nat) (ω := Nat) (μ := Payload) (α := Nat)
  refine ⟨⟨rfl, h.1 ⟨2, 2, 0⟩ _ rfl _, ?_, ?_⟩, ⟨rfl, h.2.1 ⟨2, 2, 0⟩ 0 _ rfl _, ?_⟩,
    h.2.2 ⟨0⟩ _, ?_⟩
  all_goals decide

end Troupe
