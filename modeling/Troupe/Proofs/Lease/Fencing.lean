import Mathlib.Data.List.Basic
import Troupe.Proofs.History
import Troupe.Proofs.Lease.Run

/-!
# Leases exclude each other

A key changes hands only once the grant before has run out, as far as anybody was ever
told, or was given back by its holder. The token of the later grant is the larger one.

* `Fate` — what has become of a grant: it stands with the end last recorded, or it is over
  for a reason that is on record;
* `Fate.served` — no call forgets a grant that stands, or brings back one that is over;
* `record_isFenced` — so any two grants of one key are fenced off from each other.
-/

namespace Troupe

namespace LeaseTable

/-! ## What is on record about a grant -/

/-- The grant that an entry reports. -/
def Entry.granted? (x : Entry) : Option Lease :=
  match x.reply with
  | .acquired (.ok g) => some g
  | _ => none

/-- The end that an entry sets for the grant with a token. -/
def Entry.extension? (token : Nat) (x : Entry) : Option Instant :=
  match x.reply with
  | .renewed (.ok l) => if l.token = token then some l.expires else none
  | _ => none

/-- The grants that entries report, in order. -/
def grants (entries : List Entry) : List Lease := entries.filterMap Entry.granted?

/-- The end last recorded for a grant: its own, or the one set by the last renewal since. -/
def expiryAfter (g : Lease) (since : List Entry) : Instant :=
  (since.filterMap (Entry.extension? g.token)).getLast?.getD g.expires

/-- The holder of a grant gave its key back. -/
def GivenBack (g : Lease) (since : List Entry) : Prop :=
  ∃ x ∈ since, x.request = .release g.key g.holder ∧ x.reply = .released (.ok true)

/-- An entry that extends another claim, or none, leaves the expiry of this one. -/
theorem expiryAfter_append_none {g : Lease} (since : List Entry) {x : Entry}
    (h : x.extension? g.token = none) : expiryAfter g (since ++ [x]) = expiryAfter g since := by
  simp [expiryAfter, h]

/-- An extension of the claim sets its expiry. -/
theorem expiryAfter_append_some {g : Lease} (since : List Entry) {x : Entry} {ends : Instant}
    (h : x.extension? g.token = some ends) : expiryAfter g (since ++ [x]) = ends := by
  simp [expiryAfter, h]

theorem GivenBack.append {g : Lease} {since : List Entry} (h : GivenBack g since) (x : Entry) :
    GivenBack g (since ++ [x]) := by
  obtain ⟨y, hy, hback⟩ := h
  exact ⟨y, List.mem_append_left _ hy, hback⟩

/-! ## What becomes of a grant -/

/-- What has become of a grant, by a reading of the clock. -/
inductive Fate (t : LeaseTable) (now : Instant) (g : Lease) (since : List Entry) : Prop where
  | standing (l : Lease) (hrecord : t.records.get? g.key = some l) (htoken : l.token = g.token)
      (hholder : l.holder = g.holder) (hends : l.expires = expiryAfter g since)
  | finished (hgone : ∀ key l, t.records.get? key = some l → l.token ≠ g.token)
      (hwhy : (expiryAfter g since).nanos ≤ now.nanos ∨ GivenBack g since)

/-- The reason why a grant is over stays good. -/
theorem finished_append {g : Lease} {since : List Entry} {now now' : Instant} (hnow : now ≤ now')
    {x : Entry} (hquiet : x.extension? g.token = none)
    (hwhy : (expiryAfter g since).nanos ≤ now.nanos ∨ GivenBack g since) :
    (expiryAfter g (since ++ [x])).nanos ≤ now'.nanos ∨ GivenBack g (since ++ [x]) := by
  rcases hwhy with hpast | hback
  · rw [expiryAfter_append_none since hquiet]
    exact Or.inl (Nat.le_trans hpast hnow)
  · exact Or.inr (hback.append x)

/-- A call that changes nothing and renews nothing. -/
theorem Fate.idle {t : LeaseTable} {now now' : Instant} {g : Lease} {since : List Entry}
    (h : Fate t now g since) (hnow : now ≤ now') {x : Entry}
    (hquiet : x.extension? g.token = none) : Fate t now' g (since ++ [x]) := by
  cases h with
  | standing l hrecord htoken hholder hends =>
      exact .standing l hrecord htoken hholder
        (hends.trans (expiryAfter_append_none since hquiet).symm)
  | finished hgone hwhy => exact .finished hgone (finished_append hnow hquiet hwhy)

/-- A grant's record is the only one with its token. -/
theorem Sound.only {t : LeaseTable} (ht : t.Sound) {g l : Lease}
    (hrecord : t.records.get? g.key = some l) (htoken : l.token = g.token) {key : String}
    {other : Lease} (hother : t.records.get? key = some other) (hkey : key ≠ g.key) :
    other.token ≠ g.token :=
  fun heq => hkey (ht.token_inj key g.key other l hother hrecord (heq.trans htoken.symm))

/-- The fate of a claim after another one is granted. -/
theorem Fate.granted {t : LeaseTable} (ht : t.Sound) {now now' : Instant} {g : Lease}
    {since : List Entry} (hspent : g.token < t.nextToken) (h : Fate t now g since)
    (hnow : now ≤ now') {key : String} (hfree : t.live? now' key = none) {new : Lease}
    (htoken' : new.token = t.nextToken) {x : Entry} (hquiet : x.extension? g.token = none) :
    Fate { t with records := t.records.insert key new, nextToken := t.nextToken + 1 } now' g
      (since ++ [x]) := by
  have hnew : new.token ≠ g.token := by omega
  -- a standing claim outlives a grant of another key; a grant of its own key shows that it ran out
  cases h with
  | standing l hrecord htoken hholder hends =>
      by_cases hkey : g.key = key
      · -- the next claim of the key found this one run out
        refine .finished ?_ ?_
        · intro other l' hother
          rcases Table.get?_insert_cases hother with ⟨-, rfl⟩ | ⟨ho, hold⟩
          · exact hnew
          · exact ht.only hrecord htoken hold (hkey ▸ ho)
        · rw [← hkey, live?, hrecord] at hfree
          have hdead : l.isLive now' = false := by simpa [Option.filter] using hfree
          rw [expiryAfter_append_none since hquiet, ← hends]
          exact Or.inl (Lease.not_isLive_iff.mp hdead)
      · refine .standing l ?_ htoken hholder ?_
        · show (t.records.insert key new).get? g.key = some l
          rw [Table.get?_insert_ne _ hkey]
          exact hrecord
        · rw [expiryAfter_append_none since hquiet]
          exact hends
  | finished hgone hwhy =>
      refine .finished ?_ (finished_append hnow hquiet hwhy)
      intro other l' hother
      rcases Table.get?_insert_cases hother with ⟨-, rfl⟩ | ⟨-, hold⟩
      · exact hnew
      · exact hgone other l' hold

/-- The fate of a claim after an extension, its own or another's. -/
theorem Fate.renewed {t : LeaseTable} (ht : t.Sound) {now : Instant} {g : Lease}
    {since : List Entry} (h : Fate t now g since) {call : Call} (hnow : now ≤ call.now)
    {key : String} {current : Lease} (hcurrent : t.records.get? key = some current) (ttl : Span) :
    Fate { t with records := t.records.insert key (extended call.now ttl current) } call.now g
      (since ++ [⟨call, .renewed (.ok (extended call.now ttl current))⟩]) := by
  have hquiet : current.token ≠ g.token → Entry.extension? g.token
      ⟨call, .renewed (.ok (extended call.now ttl current))⟩ = none := fun hne => if_neg hne
  -- tokens are never shared, so the extension is the claim's own exactly if the key is
  cases h with
  | standing l hrecord htoken hholder hends =>
      by_cases hkey : g.key = key
      · subst hkey
        obtain rfl : l = current := Option.some.inj (hrecord.symm.trans hcurrent)
        have hset : Entry.extension? g.token ⟨call, .renewed (.ok (extended call.now ttl l))⟩ =
            some (extended call.now ttl l).expires := if_pos htoken
        refine .standing (extended call.now ttl l) (Table.get?_insert_self _ _ _) htoken hholder ?_
        rw [expiryAfter_append_some since hset]
      · have hne := ht.only hrecord htoken hcurrent (Ne.symm hkey)
        refine .standing l ?_ htoken hholder ?_
        · show (t.records.insert key _).get? g.key = some l
          rw [Table.get?_insert_ne _ hkey]
          exact hrecord
        · rw [expiryAfter_append_none since (hquiet hne)]
          exact hends
  | finished hgone hwhy =>
      have hne := hgone key current hcurrent
      refine .finished ?_ (finished_append hnow (hquiet hne) hwhy)
      intro other l' hother
      rcases Table.get?_insert_cases hother with ⟨-, rfl⟩ | ⟨-, hold⟩
      · exact hne
      · exact hgone other l' hold

/-- Dropping records ends a grant only when its time has passed or its holder gave it back. -/
theorem Fate.dropped {t : LeaseTable} (ht : t.Sound) {now now' : Instant} {g : Lease}
    {since : List Entry} (h : Fate t now g since) (hnow : now ≤ now') {left : Table String Lease}
    (hleft : ∀ key l, left.get? key = some l → t.records.get? key = some l) {x : Entry}
    (hquiet : x.extension? g.token = none)
    (hlost : ∀ l, t.records.get? g.key = some l → l.holder = g.holder →
      left.get? g.key = some l ∨
        left.get? g.key = none ∧ (l.expires.nanos ≤ now'.nanos ∨ GivenBack g [x])) :
    Fate { t with records := left } now' g (since ++ [x]) := by
  -- a removal that spares the record keeps the claim standing, any other says why it ended
  cases h with
  | standing l hrecord htoken hholder hends =>
      rcases hlost l hrecord hholder with hkept | ⟨hnone, hwhy⟩
      · refine .standing l hkept htoken hholder ?_
        rw [expiryAfter_append_none since hquiet]
        exact hends
      · refine .finished ?_ ?_
        · intro key other hother
          have hkey : key ≠ g.key := by
            rintro rfl
            exact nomatch hnone.symm.trans hother
          exact ht.only hrecord htoken (hleft key other hother) hkey
        · rcases hwhy with hpast | ⟨y, hy, hback⟩
          · rw [expiryAfter_append_none since hquiet, ← hends]
            exact Or.inl hpast
          · exact Or.inr ⟨y, List.mem_append_right _ hy, hback⟩
  | finished hgone hwhy =>
      refine .finished ?_ (finished_append hnow hquiet hwhy)
      intro key other hother
      exact hgone key other (hleft key other hother)

/-- No call forgets a grant that stands, or brings back one that is over. -/
theorem Fate.served {t : LeaseTable} (ht : t.Sound) {clock : Instant} {g : Lease}
    {since : List Entry} (hspent : g.token < t.nextToken) (h : Fate t clock g since)
    {call : Call} (hnow : clock ≤ call.now) {o : LeaseTable × Reply}
    (hserved : Served t call.now call.request o) :
    Fate o.1 call.now g (since ++ [⟨call, o.2⟩]) := by
  obtain ⟨now, request⟩ := call
  -- only a grant, an extension or a removal touches the records, and each has its lemma
  cases hserved with
  | granted key holder ttl hz hfree => exact h.granted ht hspent hnow hfree rfl rfl
  | renewed lease ttl current hz hcurrent htoken hlive =>
      exact h.renewed ht hnow hcurrent ttl
  | removed key holder current hcurrent hmay =>
      refine h.dropped ht hnow (fun other l hother => (Table.get?_of_erase hother).2) rfl ?_
      intro l hrecord hholder
      by_cases hkey : g.key = key
      · subst hkey
        obtain rfl : l = current := Option.some.inj (hrecord.symm.trans hcurrent)
        refine Or.inr ⟨Table.get?_erase_self _ _, ?_⟩
        by_cases hlive : l.isLive now = true
        · -- only its holder can have asked for a live claim to end
          obtain rfl : g.holder = holder := hholder.symm.trans (hmay hlive)
          exact Or.inr ⟨_, List.mem_singleton_self _, rfl, by rw [hlive]⟩
        · exact Or.inl (Lease.not_isLive_iff.mp (Bool.not_eq_true _ ▸ hlive))
      · exact Or.inl ((Table.get?_erase_ne _ hkey).trans hrecord)
  | purged =>
      refine h.dropped ht hnow
        (fun other l hother => (Table.get?_of_retain ht.distinct hother).1) rfl ?_
      intro l hrecord _
      rw [Table.get?_retain ht.distinct, hrecord]
      by_cases hlive : l.isLive now = true
      · exact Or.inl (by simp [Option.filter, hlive])
      · rw [Bool.not_eq_true] at hlive
        exact Or.inr ⟨by simp [Option.filter, hlive], Or.inl (Lease.not_isLive_iff.mp hlive)⟩
  | _ => exact h.idle hnow rfl

/-! ## Every run -/

/-- A successful claim, read off its reply. -/
theorem Served.of_granted {t : LeaseTable} {now : Instant} {request : Request}
    {o : LeaseTable × Reply} (h : Served t now request o) {g : Lease}
    (hreply : o.2 = .acquired (.ok g)) :
    t.live? now g.key = none ∧ g.token = t.nextToken ∧ o.1.nextToken = t.nextToken + 1 ∧
      o.1.records.get? g.key = some g ∧ ∃ ttl, request = .acquire g.key g.holder ttl := by
  cases h with
  | granted key holder ttl hz hfree =>
      obtain rfl := Except.ok.inj (Reply.acquired.inj hreply)
      exact ⟨hfree, rfl, rfl, Table.get?_insert_self _ _ _, ttl, rfl⟩
  | timeless | busy => exact nomatch Reply.acquired.inj hreply
  | _ => exact nomatch hreply

/-- A successful renewal, read off its reply. -/
theorem Served.of_renewed {t : LeaseTable} {now : Instant} {request : Request}
    {o : LeaseTable × Reply} (h : Served t now request o) {l : Lease}
    (hreply : o.2 = .renewed (.ok l)) :
    ∃ lease ttl current, request = .renew lease ttl ∧
      t.records.get? lease.key = some current ∧ current.token = lease.token ∧
      l = extended now ttl current := by
  cases h with
  | renewed lease ttl current hz hcurrent htoken hlive =>
      exact ⟨lease, ttl, current, rfl, hcurrent, htoken,
        (Except.ok.inj (Reply.renewed.inj hreply)).symm⟩
  | unrenewed => exact nomatch Reply.renewed.inj hreply
  | _ => exact nomatch hreply

/-- The table of a record knows what has become of every grant. -/
structure Record.Tracked (r : Record) : Prop where
  sound : r.table.Sound
  spent : ∀ g ∈ grants r.entries, g.token < r.table.nextToken
  fate : ∀ before x since g, r.entries = before ++ x :: since → x.granted? = some g →
    Fate r.table r.clock g since
  /-- Every record goes back to a grant. -/
  origin : ∀ key l, r.table.records.get? key = some l →
    ∃ g ∈ grants r.entries, g.token = l.token ∧ g.key = l.key ∧ g.holder = l.holder

/-- A fresh table has no claims to keep track of. -/
theorem tracked_fresh (terms : LeaseTerms) : (⟨fresh terms, ⟨0⟩, []⟩ : Record).Tracked := by
  constructor
  · exact sound_fresh terms
  · intro g hg
    exact nomatch hg
  · intro before x since g h
    simp at h
  · intro key l h
    exact nomatch h

/-- One more entry grants at most one more claim. -/
theorem grants_append (entries : List Entry) (x : Entry) :
    grants (entries ++ [x]) = grants entries ++ x.granted?.toList := by
  cases hx : x.granted? <;> simp [grants, hx]

theorem Entry.granted?_eq_some {x : Entry} {g : Lease} :
    x.granted? = some g ↔ x.reply = .acquired (.ok g) := by
  unfold Entry.granted?
  split <;> simp_all

/-- Where a record after a call goes back to: a record before it, or the grant just made. -/
theorem Served.origin {t : LeaseTable} (ht : t.Sound) {now : Instant} {request : Request}
    {o : LeaseTable × Reply} (h : Served t now request o) {key : String} {l : Lease}
    (hl : o.1.records.get? key = some l) :
    o.2 = .acquired (.ok l) ∨ ∃ key' l', t.records.get? key' = some l' ∧ l'.token = l.token ∧
      l'.key = l.key ∧ l'.holder = l.holder := by
  -- a record comes from this very grant, or from the record it extends or is
  cases h with
  | granted key' holder ttl hz hfree =>
      rcases Table.get?_insert_cases hl with ⟨-, rfl⟩ | ⟨-, hold⟩
      · exact Or.inl rfl
      · exact Or.inr ⟨key, l, hold, rfl, rfl, rfl⟩
  | renewed lease ttl current hz hcurrent htoken hlive =>
      rcases Table.get?_insert_cases hl with ⟨-, rfl⟩ | ⟨-, hold⟩
      · exact Or.inr ⟨lease.key, current, hcurrent, rfl, rfl, rfl⟩
      · exact Or.inr ⟨key, l, hold, rfl, rfl, rfl⟩
  | removed key' holder current hcurrent hmay =>
      exact Or.inr ⟨key, l, (Table.get?_of_erase hl).2, rfl, rfl, rfl⟩
  | purged => exact Or.inr ⟨key, l, (Table.get?_of_retain ht.distinct hl).1, rfl, rfl, rfl⟩
  | _ => exact Or.inr ⟨key, l, hl, rfl, rfl, rfl⟩

/-- The count of tokens given out never falls. -/
theorem Served.nextToken_le {t : LeaseTable} {now : Instant} {request : Request}
    {o : LeaseTable × Reply} (h : Served t now request o) : t.nextToken ≤ o.1.nextToken := by
  cases h with
  | granted => exact Nat.le_succ _
  | _ => exact Nat.le_refl _

/-- One more call keeps track of every claim granted so far. -/
theorem Record.Tracked.next {r : Record} (h : r.Tracked) {call : Call}
    (hnow : r.clock ≤ call.now) : (r.next call).Tracked := by
  have hserved := served r.table call.now call.request
  have hsound : (r.next call).table.Sound := hserved.sound h.sound
  have hgrants : ∀ g, g ∈ grants (r.next call).entries → g ∈ grants r.entries ∨
      (r.table.serve call.now call.request).2 = .acquired (.ok g) := by
    intro g hg
    rw [Record.next, grants_append, List.mem_append, Option.mem_toList,
      Entry.granted?_eq_some] at hg
    exact hg
  constructor
  · exact hsound
  · intro g hg
    rcases hgrants g hg with hold | hnew
    · exact Nat.lt_of_lt_of_le (h.spent g hold) hserved.nextToken_le
    · obtain ⟨-, htoken, hnext, -, -⟩ := hserved.of_granted hnew
      show g.token < (r.table.serve call.now call.request).1.nextToken
      omega
  -- the grant at hand is either the last entry or an older one whose fate the call carries on
  · intro before x since g hsplit hx
    rcases snoc_eq_append_cons hsplit with ⟨rfl, -, rfl⟩ | ⟨rest, rfl, hrest⟩
    · -- the grant has only just been made
      obtain ⟨-, -, -, hrecord, -⟩ := hserved.of_granted (Entry.granted?_eq_some.mp hx)
      exact .standing g hrecord rfl rfl rfl
    · have hg : g ∈ grants r.entries := by
        rw [hrest, grants, List.mem_filterMap]
        exact ⟨x, by simp, hx⟩
      exact (h.fate before x rest g hrest hx).served h.sound (h.spent g hg) hnow hserved
  · intro key l hl
    rcases hserved.origin h.sound hl with hnew | ⟨key', l', hold, htoken, hkey, hholder⟩
    · refine ⟨l, ?_, rfl, rfl, rfl⟩
      rw [Record.next, grants_append, List.mem_append, Option.mem_toList, Entry.granted?_eq_some]
      exact Or.inr hnew
    · obtain ⟨g, hg, ht, hk, hh⟩ := h.origin key' l' hold
      refine ⟨g, ?_, ht.trans htoken, hk.trans hkey, hh.trans hholder⟩
      rw [Record.next, grants_append]
      exact List.mem_append_left _ hg

/-- Grants of one key exclude each other, and can be told apart by their tokens. -/
structure Record.IsFenced (r : Record) : Prop where
  /-- A grant is made to who asked, for what was asked. -/
  asked : ∀ x ∈ r.entries, ∀ g, x.reply = .acquired (.ok g) →
    ∃ ttl, x.request = .acquire g.key g.holder ttl
  increasing : (grants r.entries).Pairwise fun g g' => g.token < g'.token
  /-- A key is granted again once the grant before has run out or was given back. -/
  excluded : ∀ before x between x' after g g',
    r.entries = before ++ x :: between ++ x' :: after →
    x.reply = .acquired (.ok g) → x'.reply = .acquired (.ok g') → g.key = g'.key →
    g.token < g'.token ∧ (expiryAfter g between ≤ x'.now ∨ GivenBack g between)
  /-- A renewal is of the grant whose token was presented. -/
  renewed : ∀ before x after lease ttl l, r.entries = before ++ x :: after →
    x.request = .renew lease ttl → x.reply = .renewed (.ok l) →
    l.token = lease.token ∧ l.expires = deadlineAfter x.now ttl ∧
      ∃ g ∈ grants before, g.token = l.token ∧ g.key = l.key ∧ g.holder = l.holder

/-- A record without entries is fenced. -/
theorem isFenced_fresh (terms : LeaseTerms) : (⟨fresh terms, ⟨0⟩, []⟩ : Record).IsFenced := by
  constructor
  · intro x hx
    exact nomatch hx
  · exact List.Pairwise.nil
  · intro before x between x' after g g' hsplit
    simp at hsplit
  · intro before x after lease ttl l hsplit
    simp at hsplit

/-- One more call leaves the record fenced, given what was tracked up to it. -/
theorem Record.IsFenced.next {r : Record} (h : r.IsFenced) (htracked : r.Tracked) {call : Call}
    (hnow : r.clock ≤ call.now) : (r.next call).IsFenced := by
  have hserved := served r.table call.now call.request
  constructor
  · intro x hx g hreply
    rcases List.mem_append.mp hx with hold | hnew
    · exact h.asked x hold g hreply
    · obtain rfl := List.mem_singleton.mp hnew
      obtain ⟨-, -, -, -, hrequest⟩ := hserved.of_granted hreply
      exact hrequest
  · rw [Record.next, grants_append]
    refine List.pairwise_append.mpr ⟨h.increasing, ?_, ?_⟩
    · cases Entry.granted? _ <;> simp
    · intro g hg g' hg'
      rw [Option.mem_toList, Entry.granted?_eq_some] at hg'
      obtain ⟨-, htoken, -, -, -⟩ := hserved.of_granted hg'
      exact htoken ▸ htracked.spent g hg
  -- only a grant that is the last entry is new; its predecessor's fate says why the key was free
  · intro before x between x' after g g' hsplit hg hg' hkey
    rcases snoc_eq_append_cons hsplit with ⟨-, hrest, rfl⟩ | ⟨rest, -, hrest⟩
    · obtain ⟨hfree, htoken, -, -, -⟩ := hserved.of_granted hg'
      have hgranted := Entry.granted?_eq_some.mpr hg
      have hspent : g.token < r.table.nextToken := by
        apply htracked.spent
        rw [hrest, grants, List.mem_filterMap]
        exact ⟨x, by simp, hgranted⟩
      refine ⟨htoken ▸ hspent, ?_⟩
      -- the key was free at the reading of the second claim
      cases htracked.fate before x between g hrest hgranted with
      | standing l hrecord _ _ hends =>
          rw [← hkey, live?, hrecord] at hfree
          have hdead : l.isLive call.now = false := by simpa [Option.filter] using hfree
          rw [← hends]
          exact Or.inl (Lease.not_isLive_iff.mp hdead)
      | finished _ hwhy => exact hwhy.imp_left fun hpast => Nat.le_trans hpast hnow
    · exact h.excluded before x between x' rest g g' hrest hg hg' hkey
  · intro before x after lease ttl l hsplit hrequest hreply
    rcases snoc_eq_append_cons hsplit with ⟨-, rfl, rfl⟩ | ⟨rest, -, hrest⟩
    · obtain ⟨lease', ttl', current, hrequest', hcurrent, htoken, rfl⟩ := hserved.of_renewed hreply
      obtain ⟨rfl, rfl⟩ := Request.renew.inj (hrequest.symm.trans hrequest')
      exact ⟨htoken, rfl, htracked.origin lease.key current hcurrent⟩
    · exact h.renewed before x rest lease ttl l hrest hrequest hreply

/-- Whatever is asked of a table in the course of time, its grants exclude each other. -/
theorem record_isFenced (terms : LeaseTerms) {calls : List Call} (htimely : Timely calls) :
    (record (fresh terms) calls).IsFenced := by
  have hboth : (record (fresh terms) calls).Tracked ∧ (record (fresh terms) calls).IsFenced := by
    apply record_invariant (P := fun r => r.Tracked ∧ r.IsFenced) _ _ htimely
    · exact ⟨tracked_fresh terms, isFenced_fresh terms⟩
    · rintro r call hnow ⟨htracked, hfenced⟩
      exact ⟨htracked.next hnow, hfenced.next htracked hnow⟩
  exact hboth.2

/-- A claim cut short by a renewal, taken over once it has run out, given back and taken
again by its first holder. -/
def handover : List Call :=
  [⟨⟨0⟩, .acquire "db" ⟨1⟩ (some ⟨10⟩)⟩, ⟨⟨2⟩, .acquire "db" ⟨2⟩ none⟩,
    ⟨⟨3⟩, .renew ⟨"db", ⟨1⟩, 1, ⟨0⟩, ⟨10⟩⟩ ⟨2⟩⟩, ⟨⟨5⟩, .acquire "db" ⟨2⟩ none⟩,
    ⟨⟨6⟩, .release "db" ⟨2⟩⟩, ⟨⟨6⟩, .purge⟩, ⟨⟨6⟩, .acquire "db" ⟨1⟩ none⟩, ⟨⟨7⟩, .get "db"⟩]

/-- A claim that is renewed, outlived and given back: each next claim of the key starts when it may.
-/
theorem record_isFenced_handover :
    Timely handover ∧ (record (fresh ⟨⟨10⟩, ⟨1⟩⟩) handover).IsFenced ∧
      (grants (record (fresh ⟨⟨10⟩, ⟨1⟩⟩) handover).entries).map (·.acquired.nanos) = [0, 5, 6] :=
  ⟨by decide, record_isFenced _ (by decide), by decide⟩

end LeaseTable

end Troupe
