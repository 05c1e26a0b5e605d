import Troupe.Lease.Basic
import Troupe.Proofs.Table

/-!
# Runs of a lease table

Calls come one after the other, each with the reading of the clock on which it decides,
and no reading lies before the one before it. Everything is kept on record.

* `served` — the rules of a table: what a call answers, and what it leaves behind;
* `Served.sound` — a table files each record under its own key and spends each token once;
* `record_invariant` — what every call keeps holds of every record.
-/

namespace Troupe

theorem Lease.isLive_iff {l : Lease} {now : Instant} :
    l.isLive now = true ↔ now.nanos < l.expires.nanos :=
  decide_eq_true_iff

theorem Lease.not_isLive_iff {l : Lease} {now : Instant} :
    l.isLive now = false ↔ l.expires.nanos ≤ now.nanos := by
  rw [← Bool.not_eq_true, Lease.isLive_iff, Nat.not_lt]

namespace LeaseTable

/-- A table from which nothing was ever claimed. -/
def fresh (terms : LeaseTerms) : LeaseTable := { terms }

/-! ## What a table can be asked for -/

/-- What is asked for; a claim without a time of its own lasts as long as the terms say. -/
inductive Request where
  | acquire (key : String) (holder : AgentId) (ttl : Option Span)
  | renew (lease : Lease) (ttl : Span)
  | release (key : String) (holder : AgentId)
  | purge
  | get (key : String)

/-- What is answered. -/
inductive Reply where
  | acquired (result : Except Fault Lease)
  | renewed (result : Except Fault Lease)
  | released (result : Except Fault Bool)
  | purged (count : Nat)
  | found (lease : Option Lease)

/-- Does what is asked for, at one reading of the clock. -/
def serve (t : LeaseTable) (now : Instant) : Request → LeaseTable × Reply
  | .acquire key holder ttl =>
      let (after, result) := t.acquire now key holder (ttl.getD t.terms.ttl)
      (after, .acquired result)
  | .renew lease ttl =>
      let (after, result) := t.renew now lease ttl
      (after, .renewed result)
  | .release key holder =>
      let (after, result) := t.release now key holder
      (after, .released result)
  | .purge =>
      let (after, count) := t.purge now
      (after, .purged count)
  | .get key => (t, .found (t.live? now key))

/-- A record with a new end. -/
def extended (now : Instant) (ttl : Span) (current : Lease) : Lease :=
  { current with expires := deadlineAfter now ttl }

/-- The rules of a table. -/
inductive Served (t : LeaseTable) (now : Instant) : Request → LeaseTable × Reply → Prop where
  | timeless (key : String) (holder : AgentId) (ttl : Option Span)
      (hz : (ttl.getD t.terms.ttl).isZero = true) :
      Served t now (.acquire key holder ttl) (t, .acquired (.error (.misuse .zeroLease)))
  | busy (key : String) (holder : AgentId) (ttl : Option Span) (current : Lease)
      (hlive : t.live? now key = some current) :
      Served t now (.acquire key holder ttl)
        (t, .acquired (.error (.leaseConflict key current.holder)))
  | granted (key : String) (holder : AgentId) (ttl : Option Span)
      (hz : (ttl.getD t.terms.ttl).isZero = false) (hfree : t.live? now key = none) :
      Served t now (.acquire key holder ttl)
        ((t.grant now key holder (ttl.getD t.terms.ttl)).1,
          .acquired (.ok (t.grant now key holder (ttl.getD t.terms.ttl)).2))
  | unrenewed (lease : Lease) (ttl : Span) (fault : Fault)
      (hnot : ∀ current, t.records.get? lease.key = some current → current.token = lease.token →
        current.isLive now = true → ttl.isZero = true) :
      Served t now (.renew lease ttl) (t, .renewed (.error fault))
  | renewed (lease : Lease) (ttl : Span) (current : Lease) (hz : ttl.isZero = false)
      (hcurrent : t.records.get? lease.key = some current)
      (htoken : current.token = lease.token) (hlive : current.isLive now = true) :
      Served t now (.renew lease ttl)
        ({ t with records := t.records.insert lease.key (extended now ttl current) },
          .renewed (.ok (extended now ttl current)))
  | absent (key : String) (holder : AgentId) (hnone : t.records.get? key = none) :
      Served t now (.release key holder) (t, .released (.ok false))
  | foreign (key : String) (holder : AgentId) (current : Lease)
      (hcurrent : t.records.get? key = some current) (hother : current.holder ≠ holder)
      (hlive : current.isLive now = true) :
      Served t now (.release key holder)
        (t, .released (.error (.leaseConflict key current.holder)))
  | removed (key : String) (holder : AgentId) (current : Lease)
      (hcurrent : t.records.get? key = some current)
      (hmay : current.isLive now = true → current.holder = holder) :
      Served t now (.release key holder)
        ({ t with records := t.records.erase key }, .released (.ok (current.isLive now)))
  | purged :
      Served t now .purge
        ({ t with records := t.records.retain (·.isLive now) }, .purged (t.purge now).2)
  | found (key : String) : Served t now (.get key) (t, .found (t.live? now key))

/-- Every request is served in one of the listed ways. -/
theorem served (t : LeaseTable) (now : Instant) (request : Request) :
    Served t now request (t.serve now request) := by
  cases request with
  | acquire key holder ttl =>
      simp only [serve, acquire]
      by_cases hz : (ttl.getD t.terms.ttl).isZero = true
      · rw [if_pos hz]
        exact .timeless key holder ttl hz
      · rw [if_neg hz]
        cases hlive : t.live? now key with
        | none => exact .granted key holder ttl (Bool.not_eq_true _ ▸ hz) hlive
        | some current => exact .busy key holder ttl current hlive
  | renew lease ttl =>
      simp only [serve, renew]
      by_cases hz : ttl.isZero = true
      · rw [if_pos hz]
        exact .unrenewed lease ttl _ fun _ _ _ _ => hz
      · rw [if_neg hz]
        cases hcurrent : t.records.get? lease.key with
        | none =>
            refine .unrenewed lease ttl _ fun _ h => ?_
            rw [hcurrent] at h
            cases h
        | some current =>
            have honly : ∀ other, t.records.get? lease.key = some other → other = current :=
              fun other h => Option.some.inj (h.symm.trans hcurrent)
            -- the record is extended only if the token is its own and it is live; the rest changes
            -- nothing
            by_cases htoken : current.token = lease.token
            · by_cases hlive : current.isLive now = true
              · dsimp only
                rw [if_neg (fun h => h htoken), if_pos hlive]
                exact .renewed lease ttl current (Bool.not_eq_true _ ▸ hz) hcurrent htoken hlive
              · dsimp only
                rw [if_neg (fun h => h htoken), if_neg hlive]
                refine .unrenewed lease ttl _ fun other h _ hl => ?_
                exact absurd (honly other h ▸ hl) hlive
            · have hforeign : ∀ other, t.records.get? lease.key = some other →
                  other.token = lease.token → other.isLive now = true → ttl.isZero = true :=
                fun other h ht _ => absurd (honly other h ▸ ht) htoken
              dsimp only
              rw [if_pos htoken]
              by_cases hlive : current.isLive now = true
              · rw [if_pos hlive]
                exact .unrenewed lease ttl _ hforeign
              · rw [if_neg hlive]
                exact .unrenewed lease ttl _ hforeign
  | release key holder =>
      simp only [serve, release]
      cases hcurrent : t.records.get? key with
      | none => exact .absent key holder hcurrent
      | some current =>
          by_cases hforeign : current.holder ≠ holder ∧ current.isLive now = true
          · dsimp only
            rw [if_pos hforeign]
            exact .foreign key holder current hcurrent hforeign.1 hforeign.2
          · dsimp only
            rw [if_neg hforeign]
            refine .removed key holder current hcurrent fun hlive => ?_
            exact Decidable.of_not_not fun hother => hforeign ⟨hother, hlive⟩
  | purge => exact .purged
  | get key => exact .found key

/-! ## Tables that add up -/

/-- A table files each record under its own key, and no token is on two records or
still to be given out. -/
structure Sound (t : LeaseTable) : Prop where
  distinct : t.records.Distinct
  key_eq : ∀ key l, t.records.get? key = some l → l.key = key
  token_lt : ∀ key l, t.records.get? key = some l → l.token < t.nextToken
  token_inj : ∀ key key' l l', t.records.get? key = some l → t.records.get? key' = some l' →
    l.token = l'.token → key = key'

/-- A fresh table is sound. -/
theorem sound_fresh (terms : LeaseTerms) : (fresh terms).Sound := by
  constructor
  · exact Table.distinct_empty
  · intro key l h
    exact nomatch h
  · intro key l h
    exact nomatch h
  · intro key key' l l' h
    exact nomatch h

/-- Dropping records is harmless. -/
theorem Sound.drop {t : LeaseTable} (ht : t.Sound) {left : Table String Lease}
    (hdistinct : left.Distinct)
    (hleft : ∀ key l, left.get? key = some l → t.records.get? key = some l) :
    Sound { t with records := left } := by
  constructor
  · exact hdistinct
  · intro key l h
    exact ht.key_eq key l (hleft key l h)
  · intro key l h
    exact ht.token_lt key l (hleft key l h)
  · intro key key' l l' h h'
    exact ht.token_inj key key' l l' (hleft key l h) (hleft key' l' h')

/-- Writing a record whose token no other key has is harmless. -/
theorem Sound.write {t : LeaseTable} (ht : t.Sound) {l : Lease} {next : Nat}
    (hnext : t.nextToken ≤ next) (hlt : l.token < next)
    (hown : ∀ key other, t.records.get? key = some other → other.token = l.token → key = l.key) :
    Sound { t with records := t.records.insert l.key l, nextToken := next } := by
  constructor
  · exact ht.distinct.insert l.key l
  · intro key other h
    rcases Table.get?_insert_cases h with ⟨rfl, rfl⟩ | ⟨-, hold⟩
    · rfl
    · exact ht.key_eq key other hold
  · intro key other h
    rcases Table.get?_insert_cases h with ⟨-, rfl⟩ | ⟨-, hold⟩
    · exact hlt
    · exact Nat.lt_of_lt_of_le (ht.token_lt key other hold) hnext
  -- of two records with one token, the new one can only be itself
  · intro key key' one two h h' heq
    rcases Table.get?_insert_cases h with ⟨rfl, rfl⟩ | ⟨-, hold⟩ <;>
      rcases Table.get?_insert_cases h' with ⟨rfl, rfl⟩ | ⟨-, hold'⟩
    · rfl
    · exact (hown key' two hold' heq.symm).symm
    · exact hown key one hold heq
    · exact ht.token_inj key key' one two hold hold' heq

/-- A grant's token is on no record yet. -/
theorem Sound.token_ne {t : LeaseTable} (ht : t.Sound) {key : String} {l : Lease}
    (h : t.records.get? key = some l) : l.token ≠ t.nextToken :=
  Nat.ne_of_lt (ht.token_lt key l h)

/-- Whatever is served, a sound table stays sound. -/
theorem Served.sound {t : LeaseTable} (ht : t.Sound) {now : Instant} {request : Request}
    {o : LeaseTable × Reply} (h : Served t now request o) : o.1.Sound := by
  -- a grant spends an unused token, an extension keeps the token of the record it replaces
  cases h with
  | granted key holder ttl hz hfree =>
      refine ht.write (l := (t.grant now key holder _).2) (Nat.le_succ _) (Nat.lt_succ_self _) ?_
      intro other l hother htoken
      exact absurd htoken (ht.token_ne hother)
  | renewed lease ttl current hz hcurrent htoken hlive =>
      have hkey : (extended now ttl current).key = lease.key :=
        ht.key_eq lease.key current hcurrent
      rw [← hkey]
      refine ht.write (Nat.le_refl _) (ht.token_lt lease.key current hcurrent) ?_
      intro other l hother heq
      exact hkey ▸ ht.token_inj other lease.key l current hother hcurrent heq
  | removed key holder current hcurrent hmay =>
      refine ht.drop (ht.distinct.erase key) ?_
      intro other l hother
      exact (Table.get?_of_erase hother).2
  | purged =>
      refine ht.drop (ht.distinct.retain _) ?_
      intro other l hother
      exact (Table.get?_of_retain ht.distinct hother).1
  | _ => exact ht

/-! ## Calls on record -/

/-- A request and the reading of the clock on which it is decided. -/
structure Call where
  now : Instant
  request : Request

/-- A call with its reply. -/
structure Entry extends Call where
  reply : Reply

/-- A table with every call that was made on it, oldest first, and the latest reading. -/
structure Record where
  table : LeaseTable
  clock : Instant
  entries : List Entry

/-- Serves a call and puts it on record. -/
def Record.next (r : Record) (call : Call) : Record :=
  let o := r.table.serve call.now call.request
  ⟨o.1, call.now, r.entries ++ [⟨call, o.2⟩]⟩

/-- The record of a run of calls on a table. -/
def record (t : LeaseTable) (calls : List Call) : Record :=
  calls.foldl Record.next ⟨t, ⟨0⟩, []⟩

/-- No reading lies before an earlier one. -/
def Timely (calls : List Call) : Prop := calls.Pairwise fun a b => a.now ≤ b.now

instance (calls : List Call) : Decidable (Timely calls) :=
  inferInstanceAs (Decidable (calls.Pairwise _))

/-- What an empty record has and every timely call keeps, every record has. -/
theorem record_invariant {P : Record → Prop} {t : LeaseTable} (hinit : P ⟨t, ⟨0⟩, []⟩)
    (hnext : ∀ r call, r.clock ≤ call.now → P r → P (r.next call)) {calls : List Call}
    (htimely : Timely calls) : P (record t calls) := by
  have hclock : ∀ call ∈ calls, (⟨t, ⟨0⟩, []⟩ : Record).clock ≤ call.now :=
    fun call _ => Nat.zero_le call.now.nanos
  unfold record
  generalize (⟨t, ⟨0⟩, []⟩ : Record) = r at hinit hclock ⊢
  induction calls generalizing r with
  | nil => exact hinit
  | cons call rest ih =>
      obtain ⟨hfirst, hrest⟩ := List.pairwise_cons.mp htimely
      have hnow := hclock call List.mem_cons_self
      exact ih hrest (r.next call) (hnext r call hnow hinit) hfirst

end LeaseTable

end Troupe
