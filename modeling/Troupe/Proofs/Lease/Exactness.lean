import Troupe.Proofs.Lease.Run

/-!
# Lease errors are exact

A claim, a renewal and a return each succeed or fail for one reason, which can be read off
the record of the key. A call that fails leaves the table as it was; one that succeeds
touches no key but its own.

* `Renewal` — the six ways in which a renewal ends;
* `isExact` — the reason of every failure, and everything a success changes.
-/

namespace Troupe

theorem Span.isZero_iff {s : Span} : s.isZero = true ↔ s = Span.zero := by
  rcases s with ⟨nanos⟩
  simp [Span.isZero, Span.zero]

namespace LeaseTable

variable {t : LeaseTable} {now : Instant} {key : String} {holder : AgentId} {ttl : Span}

/-! ## Records that count -/

/-- A record that has not run out. -/
def Live (t : LeaseTable) (now : Instant) (key : String) (l : Lease) : Prop :=
  t.records.get? key = some l ∧ now < l.expires

/-- The live record of a key is the record stored under it, if that record is live. -/
theorem live_iff_isLive {l : Lease} :
    t.Live now key l ↔ t.records.get? key = some l ∧ l.isLive now = true :=
  and_congr_right fun _ => Lease.isLive_iff.symm

/-- The lookup of live records finds exactly the live record. -/
theorem live?_eq_some_iff {l : Lease} : t.live? now key = some l ↔ t.Live now key l := by
  rw [live_iff_isLive, live?, Option.filter_eq_some_iff]

/-- A key has at most one live record. -/
theorem Live.unique {l l' : Lease} (h : t.Live now key l) (h' : t.Live now key l') : l = l' :=
  Option.some.inj (h.1.symm.trans h'.1)

/-- Where the lookup finds nothing, no record is live. -/
theorem not_live_of_live?_eq_none (h : t.live? now key = none) (l : Lease) :
    ¬t.Live now key l := by
  intro hlive
  rw [live?_eq_some_iff.mpr hlive] at h
  cases h

/-- A key whose stored record ran out has no live record. -/
theorem not_live_of_isLive {current : Lease} (hcurrent : t.records.get? key = some current)
    (hdead : current.isLive now = false) (l : Lease) : ¬t.Live now key l := by
  rintro ⟨hl, hexpires⟩
  obtain rfl : current = l := Option.some.inj (hcurrent.symm.trans hl)
  rw [Lease.isLive_iff.mpr hexpires] at hdead
  cases hdead

/-- Two tables with the same terms that agree on every key but one. -/
structure OnlyAt (key : String) (t t' : LeaseTable) : Prop where
  terms : t'.terms = t.terms
  elsewhere : ∀ other, other ≠ key → t'.records.get? other = t.records.get? other

theorem OnlyAt.refl (key : String) (t : LeaseTable) : OnlyAt key t t :=
  ⟨rfl, fun _ _ => rfl⟩

theorem OnlyAt.insert (key : String) (t : LeaseTable) (l : Lease) (next : Nat) :
    OnlyAt key t { t with records := t.records.insert key l, nextToken := next } :=
  ⟨rfl, fun _ hne => Table.get?_insert_ne _ hne l⟩

theorem OnlyAt.erase (key : String) (t : LeaseTable) :
    OnlyAt key t { t with records := t.records.erase key } :=
  ⟨rfl, fun _ hne => Table.get?_erase_ne _ hne⟩

/-! ## Claims -/

/-- What a claim may answer, and what it leaves behind. -/
structure ClaimsExactly (t : LeaseTable) (now : Instant) (key : String) (holder : AgentId)
    (ttl : Span) (o : LeaseTable × Except Fault Lease) : Prop where
  misused : (∃ why, o.2 = .error (.misuse why)) ↔ ttl = Span.zero
  conflicting : ∀ k h, o.2 = .error (.leaseConflict k h) ↔
    ttl ≠ Span.zero ∧ k = key ∧ ∃ current, t.Live now key current ∧ current.holder = h
  /-- There is no third reason, and a refusal leaves no trace. -/
  refused : ∀ fault, o.2 = .error fault →
    o.1 = t ∧ (fault = .misuse .zeroLease ∨ ∃ h, fault = .leaseConflict key h)
  granted : ∀ l, o.2 = .ok l →
    l = ⟨key, holder, t.nextToken, now, deadlineAfter now ttl⟩ ∧
      o.1.records.get? key = some l ∧ o.1.nextToken = t.nextToken + 1 ∧ OnlyAt key t o.1

/-- A claim is refused for a lease of no length, refused with the holder's name while the key is
held, and granted otherwise. -/
theorem acquire_claimsExactly (t : LeaseTable) (now : Instant) (key : String) (holder : AgentId)
    (ttl : Span) : ClaimsExactly t now key holder ttl (t.acquire now key holder ttl) := by
  by_cases hz : ttl = Span.zero
  · have hrun : t.acquire now key holder ttl = (t, .error (.misuse .zeroLease)) :=
      if_pos (Span.isZero_iff.mpr hz)
    rw [hrun]
    constructor
    · exact ⟨fun _ => hz, fun _ => ⟨_, rfl⟩⟩
    · intro k h
      constructor
      · rintro ⟨⟩
      · rintro ⟨hnz, -⟩
        exact absurd hz hnz
    · rintro fault ⟨⟩
      exact ⟨rfl, Or.inl rfl⟩
    · rintro l ⟨⟩
  · have hnz : ttl.isZero = false := Bool.eq_false_iff.mpr (hz ∘ Span.isZero_iff.mp)
    -- a lease of some length is refused exactly if the lookup finds a live record
    cases hlive : t.live? now key with
    | some current =>
        have hcurrent := live?_eq_some_iff.mp hlive
        rw [acquire_live hlive holder hnz]
        constructor
        · constructor
          · rintro ⟨why, ⟨⟩⟩
          · intro heq
            exact absurd heq hz
        · intro k h
          constructor
          · rintro ⟨⟩
            exact ⟨hz, rfl, current, hcurrent, rfl⟩
          · rintro ⟨-, rfl, other, hother, rfl⟩
            rw [hcurrent.unique hother]
        · rintro fault ⟨⟩
          exact ⟨rfl, Or.inr ⟨_, rfl⟩⟩
        · rintro l ⟨⟩
    | none =>
        have hrun : t.acquire now key holder ttl =
            ((t.grant now key holder ttl).1, .ok (t.grant now key holder ttl).2) := by
          simp [acquire, hlive, hnz]
        rw [hrun]
        constructor
        · constructor
          · rintro ⟨why, ⟨⟩⟩
          · intro heq
            exact absurd heq hz
        · intro k h
          constructor
          · rintro ⟨⟩
          · rintro ⟨-, -, other, hother, -⟩
            exact absurd hother (not_live_of_live?_eq_none hlive other)
        · rintro fault ⟨⟩
        · rintro l ⟨⟩
          exact ⟨rfl, Table.get?_insert_self _ _ _, rfl, OnlyAt.insert key t _ _⟩

/-! ## Renewals -/

/-- The six ways in which a renewal ends. -/
inductive Renewal (t : LeaseTable) (now : Instant) (lease : Lease) (ttl : Span) :
    LeaseTable × Except Fault Lease → Prop where
  | timeless (hz : ttl = Span.zero) : Renewal t now lease ttl (t, .error (.misuse .zeroLease))
  | absent (hz : ttl ≠ Span.zero) (hnone : t.records.get? lease.key = none) :
      Renewal t now lease ttl (t, .error (.misuse (.leaseAbsent lease.key)))
  | overtaken (hz : ttl ≠ Span.zero) (current : Lease) (hlive : t.Live now lease.key current)
      (htoken : current.token ≠ lease.token) :
      Renewal t now lease ttl (t, .error (.leaseConflict lease.key current.holder))
  | superseded (hz : ttl ≠ Span.zero) (current : Lease)
      (hcurrent : t.records.get? lease.key = some current) (hdead : current.isLive now = false)
      (htoken : current.token ≠ lease.token) :
      Renewal t now lease ttl (t, .error (.misuse (.leaseSuperseded lease.key)))
  | lapsed (hz : ttl ≠ Span.zero) (current : Lease)
      (hcurrent : t.records.get? lease.key = some current) (hdead : current.isLive now = false)
      (htoken : current.token = lease.token) :
      Renewal t now lease ttl (t, .error (.misuse (.leaseExpired lease.key)))
  | renewed (hz : ttl ≠ Span.zero) (current : Lease) (hlive : t.Live now lease.key current)
      (htoken : current.token = lease.token) :
      Renewal t now lease ttl
        ({ t with records := t.records.insert lease.key (extended now ttl current) },
          .ok (extended now ttl current))

/-- Every renewal is one of the six cases: the ttl, the record, its token and its expiry decide
which. -/
theorem renewal (t : LeaseTable) (now : Instant) (lease : Lease) (ttl : Span) :
    Renewal t now lease ttl (t.renew now lease ttl) := by
  unfold renew
  by_cases hz : ttl = Span.zero
  · rw [if_pos (Span.isZero_iff.mpr hz)]
    exact .timeless hz
  · rw [if_neg (hz ∘ Span.isZero_iff.mp)]
    cases hcurrent : t.records.get? lease.key with
    | none => exact .absent hz hcurrent
    | some current =>
        dsimp only
        -- the token is compared first; only then does the expiry tell the two messages apart
        by_cases htoken : current.token = lease.token
        · rw [if_neg (fun hne => hne htoken)]
          by_cases hlive : current.isLive now = true
          · rw [if_pos hlive]
            exact .renewed hz current (live_iff_isLive.mpr ⟨hcurrent, hlive⟩) htoken
          · rw [if_neg hlive]
            exact .lapsed hz current hcurrent (Bool.not_eq_true _ ▸ hlive) htoken
        · rw [if_pos htoken]
          by_cases hlive : current.isLive now = true
          · rw [if_pos hlive]
            exact .overtaken hz current (live_iff_isLive.mpr ⟨hcurrent, hlive⟩) htoken
          · rw [if_neg hlive]
            exact .superseded hz current hcurrent (Bool.not_eq_true _ ▸ hlive) htoken

/-- The record that a renewal may extend. -/
def Renewable (t : LeaseTable) (now : Instant) (lease : Lease) (current : Lease) : Prop :=
  t.Live now lease.key current ∧ current.token = lease.token

/-- The record that keeps a renewal from its key. -/
def Overtaking (t : LeaseTable) (now : Instant) (lease : Lease) (current : Lease) : Prop :=
  t.Live now lease.key current ∧ current.token ≠ lease.token

/-- What a renewal may answer, and what it leaves behind. -/
structure RenewsExactly (t : LeaseTable) (now : Instant) (lease : Lease) (ttl : Span)
    (o : LeaseTable × Except Fault Lease) : Prop where
  succeeds : (∃ l, o.2 = .ok l) ↔ ttl ≠ Span.zero ∧ ∃ current, Renewable t now lease current
  conflicting : ∀ k h, o.2 = .error (.leaseConflict k h) ↔
    ttl ≠ Span.zero ∧ k = lease.key ∧ ∃ current, Overtaking t now lease current ∧ current.holder = h
  misused : (∃ why, o.2 = .error (.misuse why)) ↔
    ttl = Span.zero ∨
      (¬∃ current, Renewable t now lease current) ∧ ¬∃ current, Overtaking t now lease current
  refused : ∀ fault, o.2 = .error fault → o.1 = t
  renewed : ∀ l, o.2 = .ok l → ∃ current, Renewable t now lease current ∧
    l = { current with expires := deadlineAfter now ttl } ∧
      o.1.records.get? lease.key = some l ∧ o.1.nextToken = t.nextToken ∧ OnlyAt lease.key t o.1

/-- A renewal that finds no live record is misuse. -/
theorem RenewsExactly.of_dead {lease : Lease}
    (hdead : ∀ l, ¬t.Live now lease.key l) (why : Misuse) :
    RenewsExactly t now lease ttl (t, .error (.misuse why)) := by
  constructor
  · constructor
    · rintro ⟨l, ⟨⟩⟩
    · rintro ⟨-, l, hl, -⟩
      exact absurd hl (hdead l)
  · intro k h
    constructor
    · rintro ⟨⟩
    · rintro ⟨-, -, l, ⟨hl, -⟩, -⟩
      exact absurd hl (hdead l)
  · refine ⟨fun _ => Or.inr ⟨?_, ?_⟩, fun _ => ⟨why, rfl⟩⟩
    · rintro ⟨l, hl, -⟩
      exact hdead l hl
    · rintro ⟨l, hl, -⟩
      exact hdead l hl
  · exact fun _ _ => rfl
  · rintro l ⟨⟩

/-- Each of the six cases answers what an exact renewal answers. -/
theorem Renewal.renewsExactly {lease : Lease} {o : LeaseTable × Except Fault Lease}
    (h : Renewal t now lease ttl o) : RenewsExactly t now lease ttl o := by
  -- two of the six settle by a live record, the other four by there being none
  cases h with
  | timeless hz =>
      constructor
      · constructor
        · rintro ⟨l, ⟨⟩⟩
        · rintro ⟨hnz, -⟩
          exact absurd hz hnz
      · intro k h
        constructor
        · rintro ⟨⟩
        · rintro ⟨hnz, -⟩
          exact absurd hz hnz
      · exact ⟨fun _ => Or.inl hz, fun _ => ⟨_, rfl⟩⟩
      · exact fun _ _ => rfl
      · rintro l ⟨⟩
  | absent hz hnone =>
      refine .of_dead (fun l hl => ?_) _
      cases hnone.symm.trans hl.1
  | superseded hz current hcurrent hdead htoken
  | lapsed hz current hcurrent hdead htoken =>
      exact .of_dead (not_live_of_isLive hcurrent hdead) _
  | overtaken hz current hlive htoken =>
      constructor
      · constructor
        · rintro ⟨l, ⟨⟩⟩
        · rintro ⟨-, other, hother, heq⟩
          exact absurd (hlive.unique hother ▸ heq) htoken
      · intro k h
        constructor
        · rintro ⟨⟩
          exact ⟨hz, rfl, current, ⟨hlive, htoken⟩, rfl⟩
        · rintro ⟨-, rfl, other, ⟨hother, -⟩, rfl⟩
          rw [hlive.unique hother]
      · constructor
        · rintro ⟨why, ⟨⟩⟩
        · rintro (heq | ⟨-, hnot⟩)
          · exact absurd heq hz
          · exact absurd ⟨current, hlive, htoken⟩ hnot
      · exact fun _ _ => rfl
      · rintro l ⟨⟩
  | renewed hz current hlive htoken =>
      constructor
      · exact ⟨fun _ => ⟨hz, current, hlive, htoken⟩, fun _ => ⟨_, rfl⟩⟩
      · intro k h
        constructor
        · rintro ⟨⟩
        · rintro ⟨-, -, other, ⟨hother, hne⟩, -⟩
          exact absurd (hlive.unique hother ▸ htoken) hne
      · constructor
        · rintro ⟨why, ⟨⟩⟩
        · rintro (heq | ⟨hnot, -⟩)
          · exact absurd heq hz
          · exact absurd ⟨current, hlive, htoken⟩ hnot
      · rintro fault ⟨⟩
      · rintro l ⟨⟩
        exact ⟨current, ⟨hlive, htoken⟩, rfl, Table.get?_insert_self _ _ _, rfl,
          OnlyAt.insert lease.key t _ _⟩

/-! ## Returns -/

/-- What giving a key back may answer, and what it leaves behind. -/
structure ReleasesExactly (t : LeaseTable) (now : Instant) (key : String) (holder : AgentId)
    (o : LeaseTable × Except Fault Bool) : Prop where
  conflicting : ∀ k h, o.2 = .error (.leaseConflict k h) ↔
    k = key ∧ ∃ current, t.Live now key current ∧ current.holder ≠ holder ∧ current.holder = h
  /-- There is no other reason, and a refusal leaves no trace. -/
  refused : ∀ fault, o.2 = .error fault → o.1 = t ∧ ∃ h, fault = .leaseConflict key h
  released : ∀ ended, o.2 = .ok ended →
    (ended = true ↔ ∃ current, t.Live now key current) ∧ o.1.records.get? key = none ∧
      o.1.nextToken = t.nextToken ∧ OnlyAt key t o.1

/-- A release is refused for a live lease of another holder, and otherwise leaves the key free and
says whether a live lease ended. -/
theorem release_releasesExactly (t : LeaseTable) (now : Instant) (key : String)
    (holder : AgentId) : ReleasesExactly t now key holder (t.release now key holder) := by
  have h := served t now (.release key holder)
  generalize hrun : t.release now key holder = o
  rw [serve, hrun] at h
  rcases o with ⟨after, result⟩
  -- what was served says whether the record was missing, foreign and live, or removable
  cases h with
  | absent _ _ hnone =>
      have hdead : ∀ l, ¬t.Live now key l := by
        intro l hl
        cases hnone.symm.trans hl.1
      constructor
      · intro k h
        constructor
        · rintro ⟨⟩
        · rintro ⟨-, l, hl, -⟩
          exact absurd hl (hdead l)
      · rintro fault ⟨⟩
      · rintro ended ⟨⟩
        refine ⟨⟨?_, ?_⟩, hnone, rfl, OnlyAt.refl key t⟩
        · rintro ⟨⟩
        · rintro ⟨l, hl⟩
          exact absurd hl (hdead l)
  | foreign _ _ current hcurrent hother hlive =>
      have hfound : t.Live now key current := live_iff_isLive.mpr ⟨hcurrent, hlive⟩
      constructor
      · intro k h
        constructor
        · rintro ⟨⟩
          exact ⟨rfl, current, hfound, hother, rfl⟩
        · rintro ⟨rfl, other, hfound', -, rfl⟩
          rw [hfound.unique hfound']
      · rintro fault ⟨⟩
        exact ⟨rfl, _, rfl⟩
      · rintro ended ⟨⟩
  | removed _ _ current hcurrent hmay =>
      constructor
      · intro k h
        constructor
        · rintro ⟨⟩
        · rintro ⟨-, other, hfound, hother, -⟩
          -- the removed record is the only one under the key, so a live one is its holder's
          obtain ⟨hrecord, hlive⟩ := live_iff_isLive.mp hfound
          obtain rfl : current = other := Option.some.inj (hcurrent.symm.trans hrecord)
          exact absurd (hmay hlive) hother
      · rintro fault ⟨⟩
      · rintro ended ⟨⟩
        refine ⟨⟨fun hlive => ⟨current, live_iff_isLive.mpr ⟨hcurrent, hlive⟩⟩, ?_⟩,
          Table.get?_erase_self _ _, rfl, OnlyAt.erase key t⟩
        rintro ⟨other, hfound⟩
        obtain ⟨hrecord, hlive⟩ := live_iff_isLive.mp hfound
        obtain rfl : current = other := Option.some.inj (hcurrent.symm.trans hrecord)
        exact hlive

/-! ## Every call -/

/-- Each operation fails for the reasons it has, and changes what it says it does. -/
structure IsExact (t : LeaseTable) (now : Instant) : Prop where
  acquire : ∀ key holder ttl, ClaimsExactly t now key holder ttl (t.acquire now key holder ttl)
  renew : ∀ lease ttl, RenewsExactly t now lease ttl (t.renew now lease ttl)
  release : ∀ key holder, ReleasesExactly t now key holder (t.release now key holder)

/-- In every state of a table and at every reading of the clock. -/
theorem isExact (t : LeaseTable) (now : Instant) : t.IsExact now := by
  constructor
  · exact acquire_claimsExactly t now
  · intro lease ttl
    exact (renewal t now lease ttl).renewsExactly
  · exact release_releasesExactly t now

end LeaseTable

end Troupe
