import Mathlib.Data.List.Forall2
import Troupe.Proofs.Lease.Fencing

/-!
# A table is discreet

What a table answers about a key depends on what it was asked about that key, and when. It
does not depend on what it was asked about other keys, nor on whether a record whose time has
passed was dropped or still lies about. Only the numbers of the tokens and the wording of a
misuse tell more.

* `live?_after_others` — what concerns other keys does not show on a key;
* `displays` — a key shows the rules of a single slot, in which a record is live or is not
  there at all;
* `Shown.same` — two slots that look the same and are asked the same answer the same;
* `agree_of_same_questions` — so do two tables, whatever else they are asked in between.
-/

namespace Troupe

namespace LeaseTable

/-! ## Conversations -/

/-- What a table can be asked, by those who change it and by those who look at it. -/
inductive Query where
  | request (request : Request)
  | holder (key : String)
  | liveCount

inductive Answer where
  | reply (reply : Reply)
  | holder (holder : Option AgentId)
  | counted (count : Nat)

/-- Answers a question, at one reading of the clock. -/
def ask (t : LeaseTable) (now : Instant) : Query → LeaseTable × Answer
  | .request request => ((t.serve now request).1, .reply (t.serve now request).2)
  | .holder key => (t, .holder (t.holder? now key))
  | .liveCount => (t, .counted (t.liveCount now))

/-- The key that a question is about. -/
def Query.key? : Query → Option String
  | .request (.acquire key _ _) => some key
  | .request (.renew lease _) => some lease.key
  | .request (.release key _) => some key
  | .request .purge => none
  | .request (.get key) => some key
  | .holder key => some key
  | .liveCount => none

/-- The token of a grant, if this is one. -/
def Answer.token? : Answer → Option Nat
  | .reply (.acquired (.ok l)) => some l.token
  | _ => none

/-- A question and the reading of the clock on which it is answered. -/
structure Question where
  now : Instant
  query : Query

/-- A question with its answer. -/
structure Exchange extends Question where
  answer : Answer

/-- The table after some questions. -/
def after (t : LeaseTable) (questions : List Question) : LeaseTable :=
  questions.foldl (fun t q => (t.ask q.now q.query).1) t

/-- Questions with their answers, one after another. -/
def converse (t : LeaseTable) : List Question → List Exchange
  | [] => []
  | q :: rest => ⟨q, (t.ask q.now q.query).2⟩ :: converse (t.ask q.now q.query).1 rest

/-- No question is answered on an earlier reading than the one before it. -/
def InTime (questions : List Question) : Prop := questions.Pairwise fun a b => a.now ≤ b.now

instance (questions : List Question) : Decidable (InTime questions) :=
  inferInstanceAs (Decidable (questions.Pairwise _))

def Question.isAbout (key : String) (q : Question) : Bool := q.query.key? == some key

/-- The questions about a key. -/
def about (key : String) (questions : List Question) : List Question :=
  questions.filter (Question.isAbout key)

/-- The answers about a key. -/
def answersAbout (key : String) (exchanges : List Exchange) : List Answer :=
  (exchanges.filter fun x => x.toQuestion.isAbout key).map (·.answer)

/-- The tokens under which a key was granted, in order. -/
def tokensOf (key : String) (exchanges : List Exchange) : List Nat :=
  (answersAbout key exchanges).filterMap Answer.token?

/-! ## The same up to tokens -/

/-- Two tokens of the same grant, counted from the beginning of either conversation. -/
def SameGrant (tokens tokens' : List Nat) (a a' : Nat) : Prop :=
  ∃ n : Nat, tokens[n]? = some a ∧ tokens'[n]? = some a'

/-- Two tokens of the same grant, or two that were never granted. -/
def Counterpart (tokens tokens' : List Nat) (a a' : Nat) : Prop :=
  SameGrant tokens tokens' a a' ∨ a ∉ tokens ∧ a' ∉ tokens'

/-- Two leases that differ in their tokens at most. -/
structure SameLease (R : Nat → Nat → Prop) (l l' : Lease) : Prop where
  key : l.key = l'.key
  holder : l.holder = l'.holder
  acquired : l.acquired = l'.acquired
  expires : l.expires = l'.expires
  token : R l.token l'.token

/-- Two results that are the same up to the wording of a misuse. -/
inductive SameResult {α : Type} (S : α → α → Prop) : Except Fault α → Except Fault α → Prop where
  | ok {a b : α} (h : S a b) : SameResult S (.ok a) (.ok b)
  | refused (fault : Fault) : SameResult S (.error fault) (.error fault)
  | misused (why why' : Misuse) : SameResult S (.error (.misuse why)) (.error (.misuse why'))

inductive SameQuery (R : Nat → Nat → Prop) : Query → Query → Prop where
  | acquire (key : String) (holder : AgentId) (ttl : Option Span) :
      SameQuery R (.request (.acquire key holder ttl)) (.request (.acquire key holder ttl))
  | renew {lease lease' : Lease} (h : SameLease R lease lease') (ttl : Span) :
      SameQuery R (.request (.renew lease ttl)) (.request (.renew lease' ttl))
  | release (key : String) (holder : AgentId) :
      SameQuery R (.request (.release key holder)) (.request (.release key holder))
  | get (key : String) : SameQuery R (.request (.get key)) (.request (.get key))
  | holder (key : String) : SameQuery R (.holder key) (.holder key)

def SameQuestion (R : Nat → Nat → Prop) (q q' : Question) : Prop :=
  q.now = q'.now ∧ SameQuery R q.query q'.query

inductive SameAnswer (R : Nat → Nat → Prop) : Answer → Answer → Prop where
  | acquired {result result' : Except Fault Lease} (h : SameResult (SameLease R) result result') :
      SameAnswer R (.reply (.acquired result)) (.reply (.acquired result'))
  | renewed {result result' : Except Fault Lease} (h : SameResult (SameLease R) result result') :
      SameAnswer R (.reply (.renewed result)) (.reply (.renewed result'))
  | released {result result' : Except Fault Bool} (h : SameResult (· = ·) result result') :
      SameAnswer R (.reply (.released result)) (.reply (.released result'))
  | found {lease lease' : Option Lease} (h : Option.Rel (SameLease R) lease lease') :
      SameAnswer R (.reply (.found lease)) (.reply (.found lease'))
  | holder (holder : Option AgentId) : SameAnswer R (.holder holder) (.holder holder)

/-- What two conversations tell about a key is the same up to the tokens, and the tokens are
in the same order. -/
structure Agree (key : String) (one two : List Exchange) : Prop where
  answers : List.Forall₂ (SameAnswer (SameGrant (tokensOf key one) (tokensOf key two)))
    (answersAbout key one) (answersAbout key two)
  ordered : ∀ a a' b b', SameGrant (tokensOf key one) (tokensOf key two) a a' →
    SameGrant (tokensOf key one) (tokensOf key two) b b' → (a < b ↔ a' < b')

/-! ## Tokens -/

section Tokens

variable {tokens tokens' : List Nat} {a a' b b' : Nat}

/-- A token of some grant is that of no other. -/
theorem SameGrant.eq_iff (hone : tokens.Nodup) (htwo : tokens'.Nodup)
    (ha : SameGrant tokens tokens' a a') (hb : Counterpart tokens tokens' b b') :
    a = b ↔ a' = b' := by
  obtain ⟨n, hn, hn'⟩ := ha
  -- the counterpart of a token that was never granted was not granted either
  rcases hb with ⟨m, hm, hm'⟩ | ⟨hb, hb'⟩
  · obtain ⟨hlt, rfl⟩ := List.getElem?_eq_some_iff.mp hn
    obtain ⟨hlt', rfl⟩ := List.getElem?_eq_some_iff.mp hn'
    obtain ⟨hltm, rfl⟩ := List.getElem?_eq_some_iff.mp hm
    obtain ⟨hltm', rfl⟩ := List.getElem?_eq_some_iff.mp hm'
    rw [hone.getElem_inj_iff, htwo.getElem_inj_iff]
  · have hne : a ≠ b := by
      rintro rfl
      exact hb (List.mem_of_getElem? hn)
    have hne' : a' ≠ b' := by
      rintro rfl
      exact hb' (List.mem_of_getElem? hn')
    exact iff_of_false hne hne'

/-- Where tokens rise, the order of the grants is that of the tokens. -/
theorem lt_iff_of_getElem {n m : Nat} (h : tokens.Pairwise (· < ·)) (hn : n < tokens.length)
    (hm : m < tokens.length) : tokens[n] < tokens[m] ↔ n < m := by
  constructor
  · intro hlt
    by_contra hnot
    rcases Nat.lt_or_eq_of_le (Nat.not_lt.mp hnot) with hgt | heq
    · have hback := List.pairwise_iff_getElem.mp h m n hm hn hgt
      omega
    · subst heq
      omega
  · intro hlt
    exact List.pairwise_iff_getElem.mp h n m hn hm hlt

/-- So two runs in which the tokens rise agree on which of two grants came first. -/
theorem SameGrant.lt_iff (hone : tokens.Pairwise (· < ·)) (htwo : tokens'.Pairwise (· < ·))
    (ha : SameGrant tokens tokens' a a') (hb : SameGrant tokens tokens' b b') :
    a < b ↔ a' < b' := by
  obtain ⟨n, hn, hn'⟩ := ha
  obtain ⟨m, hm, hm'⟩ := hb
  obtain ⟨hlt, rfl⟩ := List.getElem?_eq_some_iff.mp hn
  obtain ⟨hlt', rfl⟩ := List.getElem?_eq_some_iff.mp hn'
  obtain ⟨hltm, rfl⟩ := List.getElem?_eq_some_iff.mp hm
  obtain ⟨hltm', rfl⟩ := List.getElem?_eq_some_iff.mp hm'
  rw [lt_iff_of_getElem hone, lt_iff_of_getElem htwo]

/-- Grants that come next in either conversation are the same grant. -/
theorem sameGrant_next {before before' rest rest' : List Nat}
    (hlength : before.length = before'.length) :
    SameGrant (before ++ a :: rest) (before' ++ a' :: rest') a a' := by
  refine ⟨before.length, ?_, ?_⟩
  · rw [List.getElem?_append_right (Nat.le_refl _), Nat.sub_self]
    rfl
  · rw [hlength, List.getElem?_append_right (Nat.le_refl _), Nat.sub_self]
    rfl

end Tokens

/-- An extension is the same on both sides. -/
theorem SameLease.extended {R : Nat → Nat → Prop} {l l' : Lease} (h : SameLease R l l')
    (now : Instant) (ttl : Span) :
    SameLease R (LeaseTable.extended now ttl l) (LeaseTable.extended now ttl l') :=
  ⟨h.key, h.holder, h.acquired, rfl, h.token⟩

/-! ## What shows on a key -/

variable {t u : LeaseTable} {now later : Instant} {key : String} {query : Query}

/-- A record that is live later is live now. -/
theorem live?_later (hle : now ≤ later) :
    t.live? later key = (t.live? now key).filter (·.isLive later) := by
  unfold live?
  cases t.records.get? key with
  | none => rfl
  | some l =>
      by_cases hlive : l.isLive later = true
      · have hbefore : l.isLive now = true :=
          Lease.isLive_iff.mpr (Nat.lt_of_le_of_lt hle (Lease.isLive_iff.mp hlive))
        simp [Option.filter, hlive, hbefore]
      · by_cases hbefore : l.isLive now = true
        · simp [Option.filter, hlive, hbefore]
        · simp [Option.filter, hlive, hbefore]

/-- Of a key with a record it depends on the clock alone whether somebody holds it. -/
theorem live?_of_get? {current : Lease} (h : t.records.get? key = some current) :
    t.live? now key = if current.isLive now then some current else none := by
  simp [live?, h, Option.filter]

/-- A record just written is live or not, whatever was there before. -/
theorem live?_insert (l : Lease) (next : Nat) :
    ({ t with records := t.records.insert key l, nextToken := next } : LeaseTable).live? later key =
      (some l).filter (·.isLive later) :=
  congrArg (Option.filter _) (Table.get?_insert_self _ _ _)

/-- A question leaves a table in order. -/
theorem Sound.ask (ht : t.Sound) (now : Instant) (query : Query) : (t.ask now query).1.Sound := by
  cases query with
  | request request => exact (served t now request).sound ht
  | holder key => exact ht
  | liveCount => exact ht

/-- The terms are fixed once. -/
theorem terms_ask (t : LeaseTable) (now : Instant) (query : Query) :
    (t.ask now query).1.terms = t.terms := by
  cases query with
  | request request =>
      show (t.serve now request).1.terms = t.terms
      generalize ho : t.serve now request = o
      have hserved : Served t now request o := ho ▸ served t now request
      cases hserved <;> rfl
  | holder key => rfl
  | liveCount => rfl

/-- A question that is not about a key changes nothing of what shows on it from then on. -/
theorem live?_ask_other (ht : t.Sound) (hle : now ≤ later) (hother : query.key? ≠ some key) :
    (t.ask now query).1.live? later key = t.live? later key := by
  cases query with
  | holder other => rfl
  | liveCount => rfl
  | request request =>
      show (t.serve now request).1.live? later key = t.live? later key
      generalize ho : t.serve now request = o
      have hserved : Served t now request o := ho ▸ served t now request
      -- whatever is granted, renewed or removed has another key
      cases hserved with
      | granted other holder ttl hz hfree =>
          have hne : key ≠ other := fun h => hother (h ▸ rfl)
          exact congrArg (Option.filter _) (Table.get?_insert_ne _ hne _)
      | renewed lease ttl current hz hcurrent htoken hlive =>
          have hne : key ≠ lease.key := fun h => hother (h ▸ rfl)
          exact congrArg (Option.filter _) (Table.get?_insert_ne _ hne _)
      | removed other holder current hcurrent hmay =>
          have hne : key ≠ other := fun h => hother (h ▸ rfl)
          exact congrArg (Option.filter _) (Table.get?_erase_ne _ hne)
      | purged =>
          -- what is dropped now would not be live later either
          have hkept : ({ t with records := t.records.retain (·.isLive now) } :
              LeaseTable).live? later key = (t.live? now key).filter (·.isLive later) :=
            congrArg (Option.filter _) (Table.get?_retain ht.distinct _ _)
          rw [hkept, live?_later hle]
      | _ => rfl

/-- Many questions about other keys, one after the other, change nothing of what shows on this one.
-/
theorem live?_after_others (ht : t.Sound) {others : List Question}
    (hothers : ∀ q ∈ others, q.isAbout key = false) (hle : ∀ q ∈ others, q.now ≤ later) :
    (t.after others).Sound ∧ (t.after others).terms = t.terms ∧
      (t.after others).live? later key = t.live? later key := by
  induction others generalizing t with
  | nil => exact ⟨ht, rfl, rfl⟩
  | cons q rest ih =>
      have hnot : q.query.key? ≠ some key := by
        have hq := hothers q List.mem_cons_self
        simpa [Question.isAbout] using hq
      obtain ⟨hsound, hterms, hlive⟩ := ih (ht.ask q.now q.query)
        (fun r hr => hothers r (List.mem_cons_of_mem _ hr))
        (fun r hr => hle r (List.mem_cons_of_mem _ hr))
      refine ⟨hsound, hterms.trans (terms_ask _ _ _), ?_⟩
      exact hlive.trans (live?_ask_other ht (hle q List.mem_cons_self) hnot)

/-! ## The rules of a slot -/

/-- What a key shows: the record that counts from now on, and the answer. A record whose time
has passed is not there. -/
inductive Shown (terms : LeaseTerms) (now : Instant) (token : Nat) (key : String) :
    Option Lease → Query → Option Lease × Answer → Prop where
  | timeless (slot : Option Lease) (holder : AgentId) (ttl : Option Span)
      (hz : (ttl.getD terms.ttl).isZero = true) :
      Shown terms now token key slot (.request (.acquire key holder ttl))
        (slot, .reply (.acquired (.error (.misuse .zeroLease))))
  | busy (current : Lease) (holder : AgentId) (ttl : Option Span)
      (hz : (ttl.getD terms.ttl).isZero = false) :
      Shown terms now token key (some current) (.request (.acquire key holder ttl))
        (some current, .reply (.acquired (.error (.leaseConflict key current.holder))))
  | granted (holder : AgentId) (ttl : Option Span) (hz : (ttl.getD terms.ttl).isZero = false)
      (l : Lease) (hl : l = ⟨key, holder, token, now, deadlineAfter now (ttl.getD terms.ttl)⟩) :
      Shown terms now token key none (.request (.acquire key holder ttl))
        (some l, .reply (.acquired (.ok l)))
  | unrenewed (slot : Option Lease) (lease : Lease) (ttl : Span) (why : Misuse)
      (hwhy : slot = none ∨ ttl.isZero = true) :
      Shown terms now token key slot (.request (.renew lease ttl))
        (slot, .reply (.renewed (.error (.misuse why))))
  | contested (current lease : Lease) (ttl : Span) (hz : ttl.isZero = false)
      (htoken : current.token ≠ lease.token) :
      Shown terms now token key (some current) (.request (.renew lease ttl))
        (some current, .reply (.renewed (.error (.leaseConflict key current.holder))))
  | renewed (current lease : Lease) (ttl : Span) (hz : ttl.isZero = false)
      (htoken : current.token = lease.token) :
      Shown terms now token key (some current) (.request (.renew lease ttl))
        (some (extended now ttl current), .reply (.renewed (.ok (extended now ttl current))))
  | missing (holder : AgentId) :
      Shown terms now token key none (.request (.release key holder))
        (none, .reply (.released (.ok false)))
  | foreign (current : Lease) (holder : AgentId) (hother : current.holder ≠ holder) :
      Shown terms now token key (some current) (.request (.release key holder))
        (some current, .reply (.released (.error (.leaseConflict key current.holder))))
  | released (current : Lease) (holder : AgentId) (hsame : current.holder = holder) :
      Shown terms now token key (some current) (.request (.release key holder))
        (none, .reply (.released (.ok true)))
  | found (slot : Option Lease) :
      Shown terms now token key slot (.request (.get key)) (slot, .reply (.found slot))
  | held (slot : Option Lease) :
      Shown terms now token key slot (.holder key) (slot, .holder (slot.map (·.holder)))

/-- A slot shows the answer of a table, and from then on what the table shows. -/
def Displays (t : LeaseTable) (now : Instant) (key : String) (query : Query) : Prop :=
  ∃ slot, Shown t.terms now t.nextToken key (t.live? now key) query (slot, (t.ask now query).2) ∧
    ∀ later, now ≤ later → (t.ask now query).1.live? later key = slot.filter (·.isLive later)

/-- A question with what the table is afterwards. -/
theorem displays_of_ask {left : LeaseTable} {answer : Answer} {slot : Option Lease}
    (hask : t.ask now query = (left, answer))
    (hshown : Shown t.terms now t.nextToken key (t.live? now key) query (slot, answer))
    (hlater : ∀ later, now ≤ later → left.live? later key = slot.filter (·.isLive later)) :
    t.Displays now key query := by
  refine ⟨slot, ?_, ?_⟩
  · rw [hask]
    exact hshown
  · intro later hle
    rw [hask]
    exact hlater later hle

/-- A question that changes nothing. -/
theorem displays_of_same {answer : Answer} (hask : t.ask now query = (t, answer))
    (hshown : Shown t.terms now t.nextToken key (t.live? now key) query
      (t.live? now key, answer)) : t.Displays now key query :=
  displays_of_ask hask hshown fun _ hle => live?_later hle

/-- What becomes of a claim can be told from the one key. -/
theorem displays_acquire (t : LeaseTable) (now : Instant) (key : String) (holder : AgentId)
    (ttl : Option Span) : t.Displays now key (.request (.acquire key holder ttl)) := by
  by_cases hz : (ttl.getD t.terms.ttl).isZero = true
  · have hask : t.ask now (.request (.acquire key holder ttl)) =
        (t, .reply (.acquired (.error (.misuse .zeroLease)))) := by
      simp [ask, serve, acquire, hz]
    exact displays_of_same hask (.timeless _ holder ttl hz)
  · rw [Bool.not_eq_true] at hz
    cases hlive : t.live? now key with
    | some current =>
        have hask : t.ask now (.request (.acquire key holder ttl)) =
            (t, .reply (.acquired (.error (.leaseConflict key current.holder)))) := by
          simp [ask, serve, acquire_live hlive holder hz]
        refine displays_of_same hask ?_
        rw [hlive]
        exact .busy current holder ttl hz
    | none =>
        have hask : t.ask now (.request (.acquire key holder ttl)) =
            ((t.grant now key holder (ttl.getD t.terms.ttl)).1,
              .reply (.acquired (.ok (t.grant now key holder (ttl.getD t.terms.ttl)).2))) := by
          simp [ask, serve, acquire, hz, hlive]
        refine displays_of_ask hask ?_ fun later _ => live?_insert _ _
        rw [hlive]
        exact .granted holder ttl hz _ rfl

/-- Where nothing live is found there is nothing to renew, whatever the table still holds. -/
theorem ask_renew_dead (ttl : Span) {lease : Lease} (hdead : t.live? now lease.key = none) :
    ∃ why, t.ask now (.request (.renew lease ttl)) =
      (t, .reply (.renewed (.error (.misuse why)))) := by
  by_cases hz : ttl.isZero = true
  · exact ⟨.zeroLease, by simp [ask, serve, renew, hz]⟩
  · cases hcurrent : t.records.get? lease.key with
    | none => exact ⟨.leaseAbsent lease.key, by simp [ask, serve, renew, hz, hcurrent]⟩
    | some current =>
        have hpast : current.isLive now = false := by
          rw [live?_of_get? hcurrent] at hdead
          simpa using hdead
        by_cases htoken : current.token = lease.token
        · exact ⟨.leaseExpired lease.key,
            by simp [ask, serve, renew, hz, hcurrent, hpast, htoken]⟩
        · exact ⟨.leaseSuperseded lease.key,
            by simp [ask, serve, renew, hz, hcurrent, hpast, htoken]⟩

/-- A renewal shows only the live record of its key: it is extended, its holder is named, or nothing
can be renewed. -/
theorem displays_renew (t : LeaseTable) (now : Instant) (lease : Lease) (ttl : Span) :
    t.Displays now lease.key (.request (.renew lease ttl)) := by
  cases hlive : t.live? now lease.key with
  -- no live record: every renewal is a misuse, whatever dead record lies under the key
  | none =>
      obtain ⟨why, hask⟩ := ask_renew_dead ttl hlive
      exact displays_of_same hask (.unrenewed _ lease ttl why (.inl hlive))
  | some current =>
      obtain ⟨hcurrent, hnow⟩ := Option.filter_eq_some_iff.mp hlive
      by_cases hz : ttl.isZero = true
      · have hask : t.ask now (.request (.renew lease ttl)) =
            (t, .reply (.renewed (.error (.misuse .zeroLease)))) := by
          simp [ask, serve, renew, hz]
        exact displays_of_same hask (.unrenewed _ lease ttl _ (.inr hz))
      -- a live record that refuses: the token decides between a rival and the lease itself
      · by_cases htoken : current.token ≠ lease.token
        · have hask : t.ask now (.request (.renew lease ttl)) =
              (t, .reply (.renewed (.error (.leaseConflict lease.key current.holder)))) := by
            simp [ask, serve, renew, hz, hcurrent, hnow, htoken]
          refine displays_of_same hask ?_
          rw [hlive]
          exact .contested current lease ttl (Bool.not_eq_true _ ▸ hz) htoken
        · have hask : t.ask now (.request (.renew lease ttl)) =
              ({ t with records := t.records.insert lease.key (extended now ttl current) },
                .reply (.renewed (.ok (extended now ttl current)))) := by
            simp only [ask, serve, renew, if_neg hz, hcurrent, if_neg htoken, if_pos hnow]
            rfl
          refine displays_of_ask hask ?_ fun later _ => live?_insert _ _
          rw [hlive]
          exact .renewed current lease ttl (Bool.not_eq_true _ ▸ hz) (not_not.mp htoken)

/-- A release shows only the live record of its key, and leaves the key free at every later reading.
-/
theorem displays_release (t : LeaseTable) (now : Instant) (key : String) (holder : AgentId) :
    t.Displays now key (.request (.release key holder)) := by
  -- erasing the record empties the slot for good
  have hgone : ∀ later, now ≤ later →
      ({ t with records := t.records.erase key } : LeaseTable).live? later key =
        (none : Option Lease).filter (·.isLive later) :=
    fun later _ => congrArg (Option.filter _) (Table.get?_erase_self _ _)
  cases hcurrent : t.records.get? key with
  | none =>
      have hask : t.ask now (.request (.release key holder)) =
          (t, .reply (.released (.ok false))) := by
        simp [ask, serve, release, hcurrent]
      have hlive : t.live? now key = none := by simp [live?, hcurrent]
      refine displays_of_same hask ?_
      rw [hlive]
      exact .missing holder
  | some current =>
      have hshows : t.live? now key = if current.isLive now then some current else none :=
        live?_of_get? hcurrent
      by_cases hlive : current.isLive now = true
      · rw [if_pos hlive] at hshows
        by_cases hother : current.holder ≠ holder
        · have hask : t.ask now (.request (.release key holder)) =
              (t, .reply (.released (.error (.leaseConflict key current.holder)))) := by
            simp [ask, serve, release, hcurrent, hlive, hother]
          refine displays_of_same hask ?_
          rw [hshows]
          exact .foreign current holder hother
        · have hask : t.ask now (.request (.release key holder)) =
              ({ t with records := t.records.erase key }, .reply (.released (.ok true))) := by
            simp only [ask, serve, release, hcurrent, if_neg (not_and_of_not_left _ hother), hlive]
          refine displays_of_ask hask ?_ hgone
          rw [hshows]
          exact .released current holder (not_not.mp hother)
      · -- the record goes, but it counted for nothing already
        rw [if_neg hlive] at hshows
        have hask : t.ask now (.request (.release key holder)) =
            ({ t with records := t.records.erase key }, .reply (.released (.ok false))) := by
          simp [ask, serve, release, hcurrent, hlive]
        refine displays_of_ask hask ?_ hgone
        rw [hshows]
        exact .missing holder

/-- To those who ask about a key, a table is a slot. -/
theorem displays (t : LeaseTable) (now : Instant) (hkey : query.key? = some key) :
    t.Displays now key query := by
  cases query with
  | holder other =>
      obtain rfl := Option.some.inj hkey
      exact displays_of_same rfl (.held _)
  | liveCount => exact nomatch hkey
  | request request =>
      cases request with
      | acquire other holder ttl =>
          obtain rfl := Option.some.inj hkey
          exact displays_acquire t now other holder ttl
      | renew lease ttl =>
          obtain rfl := Option.some.inj hkey
          exact displays_renew t now lease ttl
      | release other holder =>
          obtain rfl := Option.some.inj hkey
          exact displays_release t now other holder
      | purge => exact nomatch hkey
      | get other =>
          obtain rfl := Option.some.inj hkey
          exact displays_of_same rfl (.found _)

/-! ## Two slots -/

/-- Slots that look the same, asked the same, answer the same and still look the same. -/
theorem Shown.same {terms : LeaseTerms} {token token' : Nat} {tokens tokens' : List Nat}
    (hone : tokens.Nodup) (htwo : tokens'.Nodup) {slot slot' : Option Lease} {query' : Query}
    {o o' : Option Lease × Answer}
    (hslot : Option.Rel (SameLease (SameGrant tokens tokens')) slot slot')
    (hquery : SameQuery (Counterpart tokens tokens') query query')
    (hnew : ∀ n n', o.2.token? = some n → o'.2.token? = some n' → SameGrant tokens tokens' n n')
    (h : Shown terms now token key slot query o) (h' : Shown terms now token' key slot' query' o') :
    Option.Rel (SameLease (SameGrant tokens tokens')) o.1 o'.1 ∧
      SameAnswer (SameGrant tokens tokens') o.2 o'.2 := by
  -- both runs read paired slots, so the branch one run took rules out every other branch of the
  -- other
  cases hquery with
  | acquire _ holder ttl =>
      cases h with
      | timeless _ _ _ hz =>
          cases h' with
          | timeless => exact ⟨hslot, .acquired (.misused _ _)⟩
          | busy _ _ _ hz' => exact absurd (hz.symm.trans hz') (by decide)
          | granted _ _ hz' => exact absurd (hz.symm.trans hz') (by decide)
      | busy current _ _ hz =>
          cases hslot with
          | some hsame =>
              cases h' with
              | timeless _ _ _ hz' => exact absurd (hz.symm.trans hz') (by decide)
              | busy current' =>
                  rw [hsame.holder]
                  exact ⟨.some hsame, .acquired (.refused _)⟩
      | granted _ _ hz l hl =>
          cases hslot with
          | none =>
              cases h' with
              | timeless _ _ _ hz' => exact absurd (hz.symm.trans hz') (by decide)
              | granted _ _ _ l' hl' =>
                  have hsame : SameLease (SameGrant tokens tokens') l l' := by
                    refine ⟨?_, ?_, ?_, ?_, hnew l.token l'.token rfl rfl⟩
                    all_goals rw [hl, hl']
                  exact ⟨.some hsame, .acquired (.ok hsame)⟩
  | renew hlease ttl =>
      cases h with
      | unrenewed _ _ _ why hwhy =>
          cases h' with
          | unrenewed _ _ _ why' _ => exact ⟨hslot, .renewed (.misused _ _)⟩
          | contested _ _ _ hz =>
              cases hslot
              simp [hz] at hwhy
          | renewed _ _ _ hz =>
              cases hslot
              simp [hz] at hwhy
      | contested current _ _ hz htoken =>
          cases hslot with
          | some hsame =>
              cases h' with
              | unrenewed _ _ _ _ hwhy => simp [hz] at hwhy
              | contested current' =>
                  rw [hsame.holder]
                  exact ⟨.some hsame, .renewed (.refused _)⟩
              | renewed _ _ _ _ htoken' =>
                  exact absurd ((hsame.token.eq_iff hone htwo hlease.token).mpr htoken') htoken
      | renewed current _ _ hz htoken =>
          cases hslot with
          | some hsame =>
              cases h' with
              | unrenewed _ _ _ _ hwhy => simp [hz] at hwhy
              | contested _ _ _ _ htoken' =>
                  exact absurd ((hsame.token.eq_iff hone htwo hlease.token).mp htoken) htoken'
              | renewed =>
                  exact ⟨.some (hsame.extended now ttl), .renewed (.ok (hsame.extended now ttl))⟩
  | release _ holder =>
      cases h with
      | missing =>
          cases hslot with
          | none =>
              cases h' with
              | missing => exact ⟨.none, .released (.ok rfl)⟩
      | foreign current _ hother =>
          cases hslot with
          | some hsame =>
              rw [hsame.holder] at hother ⊢
              cases h' with
              | foreign => exact ⟨.some hsame, .released (.refused _)⟩
              | released _ _ hsame' => exact absurd hsame' hother
      | released current _ hholder =>
          cases hslot with
          | some hsame =>
              rw [hsame.holder] at hholder
              cases h' with
              | foreign _ _ hother => exact absurd hholder hother
              | released => exact ⟨.none, .released (.ok rfl)⟩
  | get _ =>
      cases h with
      | found =>
          cases h' with
          | found => exact ⟨hslot, .found hslot⟩
  | holder _ =>
      cases h with
      | held =>
          cases h' with
          | held =>
              refine ⟨hslot, ?_⟩
              cases hslot with
              | none => exact .holder none
              | some hsame =>
                  rw [Option.map_some, Option.map_some, hsame.holder]
                  exact .holder _

/-! ## Two conversations -/

/-- The answer to a question about the key is the first of the answers about it. -/
theorem answersAbout_about (t : LeaseTable) {q : Question} (rest : List Question)
    (hq : q.isAbout key = true) :
    answersAbout key (t.converse (q :: rest)) =
      (t.ask q.now q.query).2 :: answersAbout key ((t.ask q.now q.query).1.converse rest) := by
  simp [answersAbout, converse, hq]

/-- The answer to a question about another key is no answer about this one. -/
theorem answersAbout_other (t : LeaseTable) {q : Question} (rest : List Question)
    (hq : q.isAbout key = false) :
    answersAbout key (t.converse (q :: rest)) =
      answersAbout key ((t.ask q.now q.query).1.converse rest) := by
  simp [answersAbout, converse, hq]

/-- A stretch of questions about other keys adds no answer about this one. -/
theorem answersAbout_others (t : LeaseTable) {others : List Question} (rest : List Question)
    (hothers : ∀ q ∈ others, q.isAbout key = false) :
    answersAbout key (t.converse (others ++ rest)) =
      answersAbout key ((t.after others).converse rest) := by
  induction others generalizing t with
  | nil => rfl
  | cons other others ih =>
      rw [List.cons_append, answersAbout_other t _ (hothers other List.mem_cons_self)]
      exact ih _ fun q hq => hothers q (List.mem_cons_of_mem _ hq)

/-- Whatever is asked, the next token to be granted never goes down. -/
theorem nextToken_le_ask (t : LeaseTable) (now : Instant) (query : Query) :
    t.nextToken ≤ (t.ask now query).1.nextToken := by
  cases query with
  | request request => exact (served t now request).nextToken_le
  | holder key => exact Nat.le_refl _
  | liveCount => exact Nat.le_refl _

/-- A grant spends a token. -/
theorem token_ask {n : Nat} (h : (t.ask now query).2.token? = some n) :
    n = t.nextToken ∧ (t.ask now query).1.nextToken = n + 1 := by
  cases query with
  | holder key => exact nomatch h
  | liveCount => exact nomatch h
  | request request =>
      have hserved := served t now request
      cases hreply : (t.serve now request).2 with
      | acquired result =>
          cases result with
          | ok l =>
              obtain ⟨-, htoken, hnext, -, -⟩ := hserved.of_granted hreply
              obtain rfl : l.token = n := by simpa [ask, Answer.token?, hreply] using h
              exact ⟨htoken, hnext.trans (congrArg (· + 1) htoken.symm)⟩
          | error fault => simp [ask, Answer.token?, hreply] at h
      | _ => simp [ask, Answer.token?, hreply] at h

/-- The tokens of a key rise, from the number that the table gives out next. -/
theorem tokensOf_rising (t : LeaseTable) (key : String) (questions : List Question) :
    (tokensOf key (t.converse questions)).Pairwise (· < ·) ∧
      ∀ n ∈ tokensOf key (t.converse questions), t.nextToken ≤ n := by
  -- on the questions: a grant spends the next token, and later grants start above it
  induction questions generalizing t with
  | nil => exact ⟨List.Pairwise.nil, fun n hn => nomatch hn⟩
  | cons q rest ih =>
      obtain ⟨hrising, hfrom⟩ := ih (t.ask q.now q.query).1
      have hle := nextToken_le_ask t q.now q.query
      have hrest : ∀ n ∈ tokensOf key ((t.ask q.now q.query).1.converse rest), t.nextToken ≤ n :=
        fun n hn => Nat.le_trans hle (hfrom n hn)
      cases hq : q.isAbout key with
      | false =>
          rw [tokensOf, answersAbout_other t rest hq]
          exact ⟨hrising, hrest⟩
      | true =>
          rw [tokensOf, answersAbout_about t rest hq, List.filterMap_cons]
          cases htoken : (t.ask q.now q.query).2.token? with
          | none => exact ⟨hrising, hrest⟩
          | some first =>
              obtain ⟨rfl, hnext⟩ := token_ask htoken
              refine ⟨List.pairwise_cons.mpr ⟨fun n hn => ?_, hrising⟩, fun n hn => ?_⟩
              · have hn := hfrom n hn
                omega
              · rcases List.mem_cons.mp hn with rfl | hn
                · exact Nat.le_refl _
                · exact hrest n hn

/-- The same answer is a grant in both conversations or in neither. -/
theorem SameAnswer.token? {R : Nat → Nat → Prop} {answer answer' : Answer}
    (h : SameAnswer R answer answer') :
    answer.token? = none ∧ answer'.token? = none ∨
      ∃ n n', answer.token? = some n ∧ answer'.token? = some n' := by
  cases h with
  | acquired h =>
      cases h with
      | ok h => exact .inr ⟨_, _, rfl, rfl⟩
      | refused fault => exact .inl ⟨rfl, rfl⟩
      | misused why why' => exact .inl ⟨rfl, rfl⟩
  | _ => exact .inl ⟨rfl, rfl⟩

/-- Slots that look the same go on doing so. -/
theorem filter_same {R : Nat → Nat → Prop} {slot slot' : Option Lease}
    (h : Option.Rel (SameLease R) slot slot') (later : Instant) :
    Option.Rel (SameLease R) (slot.filter (·.isLive later)) (slot'.filter (·.isLive later)) := by
  cases h with
  | none => exact .none
  | @some l l' h =>
      have hboth : l.isLive later = l'.isLive later := by
        rw [Lease.isLive, Lease.isLive, h.expires]
      by_cases hlive : l'.isLive later = true
      · simpa [Option.filter, hboth, hlive] using Option.Rel.some h
      · simp [Option.filter, hboth, hlive]

/-- Two tables in the middle of conversations in which a key was granted under some tokens,
as often so far in the one as in the other. They show the same of the key from now on. -/
structure Level (tokens tokens' : List Nat) (key : String) (clock : Instant) (t u : LeaseTable)
    (one two : List Question) : Prop where
  sound : t.Sound ∧ u.Sound
  terms : t.terms = u.terms
  inTime : InTime one ∧ InTime two
  ahead : (∀ q ∈ one, clock ≤ q.now) ∧ ∀ q ∈ two, clock ≤ q.now
  slots : ∀ later, clock ≤ later →
    Option.Rel (SameLease (SameGrant tokens tokens')) (t.live? later key) (u.live? later key)
  granted : ∃ done done', tokens = done ++ tokensOf key (t.converse one) ∧
    tokens' = done' ++ tokensOf key (u.converse two) ∧ done.length = done'.length

section Simulation

variable {tokens tokens' : List Nat} {clock : Instant} {one two rest rest' : List Question}
  {q q' : Question}

/-- In order of time, the first question bears the earliest reading. -/
theorem InTime.first (h : InTime (q :: rest)) : ∀ r ∈ q :: rest, q.now ≤ r.now := by
  intro r hr
  rcases List.mem_cons.mp hr with rfl | hr
  · exact Nat.le_refl _
  · exact (List.pairwise_cons.mp h).1 r hr

/-- What is asked about other keys leaves two tables level. -/
theorem Level.others {others others' : List Question}
    (h : Level tokens tokens' key clock t u (others ++ q :: rest) (others' ++ q' :: rest'))
    (hnow : q.now = q'.now) (hothers : ∀ r ∈ others, r.isAbout key = false)
    (hothers' : ∀ r ∈ others', r.isAbout key = false) :
    Level tokens tokens' key q.now (t.after others) (u.after others') (q :: rest)
      (q' :: rest') := by
  -- questions about other keys leave the slot as it was at every reading from their end on
  obtain ⟨hrest, hahead, hbefore⟩ := List.pairwise_append.mp h.inTime.1
  obtain ⟨hrest', hahead', hbefore'⟩ := List.pairwise_append.mp h.inTime.2
  have hclock : clock ≤ q.now := h.ahead.1 q (by simp)
  have hone := fun later (hle : q.now ≤ later) => live?_after_others h.sound.1 hothers
    fun r hr => Nat.le_trans (hbefore r hr q List.mem_cons_self) hle
  have htwo := fun later (hle : q.now ≤ later) => live?_after_others h.sound.2 hothers'
    fun r hr => Nat.le_trans (hbefore' r hr q' List.mem_cons_self) (hnow ▸ hle)
  obtain ⟨hsound, hterms, -⟩ := hone q.now (Nat.le_refl _)
  obtain ⟨hsound', hterms', -⟩ := htwo q.now (Nat.le_refl _)
  constructor
  · exact ⟨hsound, hsound'⟩
  · rw [hterms, hterms', h.terms]
  · exact ⟨hahead, hahead'⟩
  · exact ⟨InTime.first hahead, hnow ▸ InTime.first hahead'⟩
  · intro later hle
    rw [(hone later hle).2.2, (htwo later hle).2.2]
    exact h.slots later (Nat.le_trans hclock hle)
  · obtain ⟨done, done', hdone, hdone', hlength⟩ := h.granted
    rw [tokensOf, answersAbout_others t _ hothers] at hdone
    rw [tokensOf, answersAbout_others u _ hothers'] at hdone'
    exact ⟨done, done', hdone, hdone', hlength⟩

/-- Asked the same about the key, two level tables answer the same and stay level. -/
theorem Level.next (h : Level tokens tokens' key clock t u (q :: rest) (q' :: rest'))
    (hone : tokens.Nodup) (htwo : tokens'.Nodup)
    (hsame : SameQuestion (Counterpart tokens tokens') q q') (hq : q.isAbout key = true)
    (hq' : q'.isAbout key = true) :
    SameAnswer (SameGrant tokens tokens') (t.ask q.now q.query).2 (u.ask q'.now q'.query).2 ∧
      Level tokens tokens' key q.now (t.ask q.now q.query).1 (u.ask q'.now q'.query).1
        rest rest' := by
  obtain ⟨now, query⟩ := q
  obtain ⟨now', query'⟩ := q'
  obtain ⟨rfl, hquery⟩ : now = now' ∧ SameQuery _ query query' := hsame
  obtain ⟨done, done', hdone, hdone', hlength⟩ := h.granted
  rw [tokensOf, answersAbout_about t rest hq, List.filterMap_cons] at hdone
  rw [tokensOf, answersAbout_about u rest' hq', List.filterMap_cons] at hdone'
  obtain ⟨slot, hshown, hslot⟩ := t.displays now (by simpa [Question.isAbout] using hq)
  obtain ⟨slot', hshown', hslot'⟩ := u.displays now (by simpa [Question.isAbout] using hq')
  rw [← h.terms] at hshown'
  -- a grant here is the next grant of either run, so the two tokens have one number
  have hnew : ∀ n n', (t.ask now query).2.token? = some n →
      (u.ask now query').2.token? = some n' → SameGrant tokens tokens' n n' := by
    intro n n' hn hn'
    rw [hn] at hdone
    rw [hn'] at hdone'
    rw [hdone, hdone']
    exact sameGrant_next hlength
  obtain ⟨hsame, hanswer⟩ := hshown.same hone htwo
    (h.slots now (h.ahead.1 _ List.mem_cons_self)) hquery hnew hshown'
  obtain ⟨hahead, hrest⟩ := List.pairwise_cons.mp h.inTime.1
  obtain ⟨hahead', hrest'⟩ := List.pairwise_cons.mp h.inTime.2
  refine ⟨hanswer, ?_⟩
  constructor
  · exact ⟨h.sound.1.ask now query, h.sound.2.ask now query'⟩
  · rw [terms_ask, terms_ask, h.terms]
  · exact ⟨hrest, hrest'⟩
  · exact ⟨hahead, hahead'⟩
  · intro later hle
    rw [hslot later hle, hslot' later hle]
    exact filter_same hsame later
  · rcases hanswer.token? with ⟨hnone, hnone'⟩ | ⟨n, n', hn, hn'⟩
    · rw [hnone] at hdone
      rw [hnone'] at hdone'
      exact ⟨done, done', hdone, hdone', hlength⟩
    · rw [hn] at hdone
      rw [hn'] at hdone'
      refine ⟨done ++ [n], done' ++ [n'], ?_, ?_, ?_⟩
      · rw [List.append_assoc]
        exact hdone
      · rw [List.append_assoc]
        exact hdone'
      · rw [List.length_append, List.length_append, hlength]
        rfl

/-- Two level tables answer the same questions about the key the same, to the end. -/
theorem Level.answers (h : Level tokens tokens' key clock t u one two) (hone : tokens.Nodup)
    (htwo : tokens'.Nodup)
    (hsame : List.Forall₂ (SameQuestion (Counterpart tokens tokens')) (about key one)
      (about key two)) :
    List.Forall₂ (SameAnswer (SameGrant tokens tokens')) (answersAbout key (t.converse one))
      (answersAbout key (u.converse two)) := by
  generalize hleft : about key one = left at hsame
  generalize hright : about key two = right at hsame
  -- on the paired questions: skip what concerns other keys, then answer the pair
  induction hsame generalizing t u clock one two with
  | nil =>
      have hnone := answersAbout_others t [] fun q hq =>
        eq_false_of_ne_true (List.filter_eq_nil_iff.mp hleft q hq)
      have hnone' := answersAbout_others u [] fun q hq =>
        eq_false_of_ne_true (List.filter_eq_nil_iff.mp hright q hq)
      rw [List.append_nil] at hnone hnone'
      rw [hnone, hnone']
      exact .nil
  | cons hq _ ih =>
      obtain ⟨others, rest, rfl, hothers, habout, hleft⟩ := List.filter_eq_cons_iff.mp hleft
      obtain ⟨others', rest', rfl, hothers', habout', hright⟩ := List.filter_eq_cons_iff.mp hright
      have hnot := fun r hr => eq_false_of_ne_true (hothers r hr)
      have hnot' := fun r hr => eq_false_of_ne_true (hothers' r hr)
      obtain ⟨hanswer, hlevel⟩ := (h.others hq.1 hnot hnot').next hone htwo hq habout habout'
      rw [answersAbout_others t _ hnot, answersAbout_others u _ hnot',
        answersAbout_about _ _ habout, answersAbout_about _ _ habout']
      exact .cons hanswer (ih hlevel hleft hright)

end Simulation

/-- Two tables in two courses of time, asked the same about a key, tell the same of it,
whatever else they are asked and however often they are cleared up in between. A lease that
is presented may be one that the table handed out under another token, and is then the same
lease if it comes from the same grant. -/
theorem agree_of_same_questions (terms : LeaseTerms) (key : String) {one two : List Question}
    (hone : InTime one) (htwo : InTime two)
    (hsame : List.Forall₂ (SameQuestion (Counterpart (tokensOf key ((fresh terms).converse one))
      (tokensOf key ((fresh terms).converse two)))) (about key one) (about key two)) :
    Agree key ((fresh terms).converse one) ((fresh terms).converse two) := by
  obtain ⟨hrising, -⟩ := tokensOf_rising (fresh terms) key one
  obtain ⟨hrising', -⟩ := tokensOf_rising (fresh terms) key two
  -- two fresh tables are level: no slot is taken and nothing was granted
  have hlevel : Level (tokensOf key ((fresh terms).converse one))
      (tokensOf key ((fresh terms).converse two)) key ⟨0⟩ (fresh terms) (fresh terms) one two := by
    constructor
    · exact ⟨sound_fresh terms, sound_fresh terms⟩
    · rfl
    · exact ⟨hone, htwo⟩
    · exact ⟨fun q _ => Nat.zero_le q.now.nanos, fun q _ => Nat.zero_le q.now.nanos⟩
    · intro later _
      exact .none
    · exact ⟨[], [], rfl, rfl, rfl⟩
  constructor
  · exact hlevel.answers hrising.nodup hrising'.nodup hsame
  · intro a a' b b' ha hb
    exact ha.lt_iff hrising hrising' hb

/-- A claim that runs out and cannot be renewed, taken over, contested with the old lease,
renewed and given back. -/
def takeover : List Question :=
  [⟨⟨0⟩, .request (.acquire "db" ⟨1⟩ none)⟩,
    ⟨⟨10⟩, .request (.renew ⟨"db", ⟨1⟩, 1, ⟨0⟩, ⟨10⟩⟩ ⟨5⟩)⟩,
    ⟨⟨11⟩, .request (.acquire "db" ⟨2⟩ none)⟩,
    ⟨⟨12⟩, .request (.renew ⟨"db", ⟨1⟩, 1, ⟨0⟩, ⟨10⟩⟩ ⟨5⟩)⟩,
    ⟨⟨13⟩, .request (.renew ⟨"db", ⟨2⟩, 2, ⟨11⟩, ⟨21⟩⟩ ⟨30⟩)⟩, ⟨⟨30⟩, .holder "db"⟩,
    ⟨⟨31⟩, .request (.release "db" ⟨2⟩)⟩]

/-- The takeover with claims of another key and clearings in between. -/
def busyTakeover : List Question :=
  [⟨⟨0⟩, .request (.acquire "cache" ⟨3⟩ none)⟩, ⟨⟨0⟩, .request (.acquire "db" ⟨1⟩ none)⟩,
    ⟨⟨10⟩, .request .purge⟩, ⟨⟨10⟩, .request (.renew ⟨"db", ⟨1⟩, 2, ⟨0⟩, ⟨10⟩⟩ ⟨5⟩)⟩,
    ⟨⟨10⟩, .request (.acquire "cache" ⟨4⟩ none)⟩, ⟨⟨11⟩, .liveCount⟩,
    ⟨⟨11⟩, .request (.acquire "db" ⟨2⟩ none)⟩,
    ⟨⟨12⟩, .request (.renew ⟨"db", ⟨1⟩, 2, ⟨0⟩, ⟨10⟩⟩ ⟨5⟩)⟩,
    ⟨⟨13⟩, .request (.renew ⟨"db", ⟨2⟩, 4, ⟨11⟩, ⟨21⟩⟩ ⟨30⟩)⟩, ⟨⟨29⟩, .request .purge⟩,
    ⟨⟨30⟩, .holder "db"⟩, ⟨⟨31⟩, .request (.release "db" ⟨2⟩)⟩]

/-- The claim of one key ends and passes to another agent, alone and amid the traffic of a second
key: the two runs agree, though their tokens are not the same numbers. -/
theorem agree_of_same_questions_takeover :
    InTime takeover ∧ InTime busyTakeover ∧
      Agree "db" ((fresh ⟨⟨10⟩, ⟨1⟩⟩).converse takeover)
        ((fresh ⟨⟨10⟩, ⟨1⟩⟩).converse busyTakeover) ∧
      tokensOf "db" ((fresh ⟨⟨10⟩, ⟨1⟩⟩).converse takeover) = [1, 2] ∧
      tokensOf "db" ((fresh ⟨⟨10⟩, ⟨1⟩⟩).converse busyTakeover) = [2, 4] := by
  refine ⟨by decide, by decide, agree_of_same_questions _ _ (by decide) (by decide) ?_,
    by decide, by decide⟩
  have hold : SameLease (Counterpart [1, 2] [2, 4]) ⟨"db", ⟨1⟩, 1, ⟨0⟩, ⟨10⟩⟩
      ⟨"db", ⟨1⟩, 2, ⟨0⟩, ⟨10⟩⟩ := ⟨rfl, rfl, rfl, rfl, .inl ⟨0, by decide⟩⟩
  have hnew : SameLease (Counterpart [1, 2] [2, 4]) ⟨"db", ⟨2⟩, 2, ⟨11⟩, ⟨21⟩⟩
      ⟨"db", ⟨2⟩, 4, ⟨11⟩, ⟨21⟩⟩ := ⟨rfl, rfl, rfl, rfl, .inl ⟨1, by decide⟩⟩
  exact .cons ⟨rfl, .acquire _ _ _⟩ (.cons ⟨rfl, .renew hold _⟩
    (.cons ⟨rfl, .acquire _ _ _⟩ (.cons ⟨rfl, .renew hold _⟩
      (.cons ⟨rfl, .renew hnew _⟩ (.cons ⟨rfl, .holder _⟩ (.cons ⟨rfl, .release _ _⟩ .nil))))))

end LeaseTable

end Troupe
