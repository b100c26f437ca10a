import Hsp.Distribution.Retention

/-!
# Locks that are changed at the same time

A call that sets the retention or the legal hold of an object reads the lock, changes its part and
writes the lock back.  Nothing makes this one action, so calls that run at the same time may undo
what others have set.

* `LockTurn` : the order in which a call performs its operations, and what it then knows;
* `lock_updates_kept` : if no call writes the lock unless it has read it since it was last written,
  then in every interleaving of calls by those who may not repair, what a call has set stays;
* `Sample.legal_hold_lost` : a legal hold is lost to a call that has read the lock before.
-/

namespace Hsp

open List

namespace Distribution

variable {d : Deployment} {t : TenantId} {b k : String} {lock : Option ObjectLockRecord}
  {times : List ℕ} {v old : ObjectLockRecord}

/-! ### Calls that change a lock -/

/-- What a call sets in the lock of an object. -/
inductive LockChange where
  | retention (immutableUntilMs : Option UInt64) (mode : Option String)
  | legalHold (legalHold : Bool)

/-- A call that changes the lock of an object. -/
structure LockCall where
  auth : AuthContext
  bucket : String
  key : String
  change : LockChange

namespace LockCall

def handle (t : TenantId) (c : LockCall) : Dist ObjectLockRecord :=
  match c.change with
  | .retention immutableUntilMs mode =>
    putObjectRetention c.auth t c.bucket c.key immutableUntilMs mode
  | .legalHold legalHold => putObjectLegalHold c.auth t c.bucket c.key legalHold

/-- The call is about the given object, and the caller may not repair. -/
structure Plain (b k : String) (c : LockCall) : Prop where
  bucket : canonicalBucketName c.bucket = .ok b
  key : canonicalObjectKeyName c.key = .ok k
  unprivileged : .adminRepair ∉ c.auth.claims.ops

end LockCall

/-- Calls that change locks at the same time. -/
abbrev LockPool (ι : Type) := Pool ι serverSig (Except ApiError ObjectLockRecord) Server

/-- The calls before their first turn. -/
def lockPool {ι : Type} (t : TenantId) (calls : ι → LockCall) (s : Server) : LockPool ι :=
  ⟨fun i => ((calls i).handle t).run, s⟩

/-! ### Who has read the lock as it is -/

def Action.reads (a : Slot) : Action → Bool
  | .own (.read a') => a' = a
  | _ => false

def Action.alters (a : Slot) : Action → Bool
  | .own (.write a' _) | .own (.delete a') => a' = a
  | _ => false

section Readers

variable {ι : Type}

/-- Those who have read an entry since it was last written, after one more turn. -/
def readersAfter (a : Slot) (readers : List ι) (turn : ι × Action) : List ι :=
  if turn.2.reads a then turn.1 :: readers else if turn.2.alters a then [] else readers

/-- Those who have read an entry since it was last written. -/
def readers (a : Slot) (turns : List (ι × Action)) : List ι := turns.foldl (readersAfter a) []

theorem readers_append (a : Slot) (turns : List (ι × Action)) (turn : ι × Action) :
    readers a (turns ++ [turn]) = readersAfter a (readers a turns) turn := by
  rw [readers, foldl_append]
  rfl

/-- The turn of a call does not write the entry unless the call has read it since it was last
written. -/
def UpToDate [DecidableEq ι] (a : Slot) (turns : List (ι × Action)) (c : LockPool ι) (i : ι) :
    Prop :=
  (c.threads i).next?.all fun o => !o.alters a || (readers a turns).contains i

instance [DecidableEq ι] (a : Slot) (turns : List (ι × Action)) (c : LockPool ι) (i : ι) :
    Decidable (UpToDate a turns c i) :=
  inferInstanceAs (Decidable (_ = true))

end Readers

/-! ### The turns of a call -/

/-- How far a call has come. -/
inductive LockStage where
  | idle
  /-- The call has read the lock, and then the clock at these times. -/
  | seen (lock : Option ObjectLockRecord) (times : List ℕ)
  | wrote (change : LockChange)

/-- At one of the times at which the clock was read, retention had ended or is not shortened. -/
def Checked (old : ObjectLockRecord) (newUntil : Option UInt64) (times : List ℕ) : Prop :=
  ∃ now ∈ times, ∀ current, old.immutableUntilMs = some current → now < current.toNat →
    ∃ longer, newUntil = some longer ∧ current ≤ longer

/-- What is known of a lock that is written in place of the one that was read, by a call whose
caller may not repair. -/
def LockChange.Applied (lock : Option ObjectLockRecord) (times : List ℕ) (v : ObjectLockRecord) :
    LockChange → Prop
  | .retention newUntil _ => v.immutableUntilMs = newUntil ∧ ∀ old ∈ lock,
      v.legalHold = old.legalHold ∧ Checked old newUntil times
  | .legalHold on => v.legalHold = on ∧ ∀ old ∈ lock,
      v.immutableUntilMs = old.immutableUntilMs ∧ (old.legalHold → on)

/-- A legal hold stays, as the caller may not repair. -/
theorem LockChange.Applied.held {change : LockChange} (h : change.Applied lock times v)
    (hlock : lock = some old) (hheld : old.legalHold) : v.legalHold := by
  cases change with
  | retention newUntil newMode => exact (h.2 old hlock).1.trans hheld
  | legalHold on => exact h.1.trans ((h.2 old hlock).2 hheld)

/-- Retention that has not ended at the times at which the call has read the clock stays. -/
theorem LockChange.Applied.retained {change : LockChange} {current : UInt64}
    (h : change.Applied lock times v) (hlock : lock = some old)
    (hcurrent : old.immutableUntilMs = some current)
    (hactive : ∀ now ∈ times, now < current.toNat) :
    ∃ longer, v.immutableUntilMs = some longer ∧ current ≤ longer := by
  cases change with
  | retention newUntil newMode =>
    obtain ⟨now, hnow, hprolongs⟩ := (h.2 old hlock).2
    rw [h.1]
    exact hprolongs current hcurrent (hactive now hnow)
  | legalHold on => exact ⟨current, (h.2 old hlock).1.trans hcurrent, UInt64.le_refl _⟩

/-- A record says that it belongs to the object, or to one that shares its place. -/
def ObjectLockRecord.Filed (t : TenantId) (b k : String) (lock : ObjectLockRecord) : Prop :=
  lock.tenantId = t ∧ objectLockStoreKey lock.bucket lock.key = objectLockStoreKey b k

/-- The turns of a call that changes the lock of an object. -/
inductive LockTurn (t : TenantId) (b k : String) :
    LockStage → (o : Action) → o.Res → LockStage → Prop where
  | bucket {a : Slot} {r : Except ApiError (Option a.Val)} (ha : a.kind ≠ .objectLock) :
      LockTurn t b k .idle (.own (.read a)) r .idle
  | read {lock : Option ObjectLockRecord} :
      LockTurn t b k .idle (.own (.read (objectLockSlot t b k))) (.ok lock) (.seen lock [])
  | time {lock : Option ObjectLockRecord} {times : List ℕ} {now : ℕ} :
      LockTurn t b k (.seen lock times) (.own .now) now (.seen lock (now :: times))
  | write {lock : Option ObjectLockRecord} {times : List ℕ} {change : LockChange} {t' : TenantId}
      {name : String} {v : ObjectLockRecord}
      (place : (∀ old ∈ lock, old.Filed t b k) →
        (t' = t ∧ name = objectLockStoreKey b k) ∧ v.Filed t b k)
      (applied : change.Applied lock times v) :
      LockTurn t b k (.seen lock times) (.own (.write ⟨.objectLock, t', name⟩ v)) (.ok ())
        (.wrote change)

/-- The protocol of calls that change the lock of an object. -/
@[reducible] def lockProtocol (d : Deployment) (t : TenantId) (b k : String) :
    Protocol serverSig where
  Stage := LockStage
  Legal o r := ∃ s, r = (act d o s).1
  Step := LockTurn t b k

section Follows

variable {c : LockCall} {lock : Option ObjectLockRecord} {times : List ℕ}

theorem follows_nowMs :
    (lockProtocol d t b k).FollowsE nowMs (.seen lock times)
      (fun now s => s = .seen lock (now :: times)) fun (_ : ApiError) _ => True :=
  .lift (.perform fun _ _ => ⟨_, .time, rfl⟩)

/-- The checks of a pure computation. -/
theorem follows_ofExcept {α : Type} {stage : LockStage} {Q : α → LockStage → Prop}
    {x : Except ApiError α} (h : ∀ a, x = .ok a → Q a stage) :
    (lockProtocol d t b k).FollowsE (ofExcept x) stage Q fun _ _ => True := by
  cases x with
  | error e => trivial
  | ok a => exact h a rfl

theorem follows_changeObject (hc : c.Plain b k) :
    (lockProtocol d t b k).FollowsE (changeObject c.auth t c.bucket c.key) .idle
      (fun names s => names = (b, k) ∧ s = .idle) fun _ _ => True := by
  refine .bind (follows_ofExcept fun b' hb => ?_)
  obtain rfl := Except.ok.inj (hc.bucket.symm.trans hb)
  refine .bind (follows_ofExcept fun k' hk => ?_)
  obtain rfl := Except.ok.inj (hc.key.symm.trans hk)
  refine .bind (follows_ofExcept fun _ _ => .bind ?_)
  -- The bucket is looked up, which is not a lock.
  refine .bind (follows_ofExcept fun name _ => .bind fun r hr => ⟨.idle, .bucket (by simp), ?_⟩)
  obtain ⟨s, rfl⟩ := hr
  cases hrecord : s.lookup (bucketSlot t name) with
  | none =>
    simp only [act, ownExec, hrecord]
    trivial
  | some record =>
    simp only [act, ownExec, hrecord]
    exact ⟨rfl, rfl⟩

/-- The record is the lock, or one that locks nothing. -/
structure Represents (t : TenantId) (b k : String) (lock : Option ObjectLockRecord)
    (record : ObjectLockRecord) : Prop where
  eq : ∀ old ∈ lock, record = old
  filed : (∀ old ∈ lock, old.Filed t b k) → record.Filed t b k

theorem represents_getD (lock : Option ObjectLockRecord) (now : ℕ) :
    Represents t b k lock (lock.getD ⟨t, b, k, none, false, none, now⟩) := by
  cases lock with
  | none => exact ⟨by simp, fun _ => ⟨rfl, rfl⟩⟩
  | some old => exact ⟨by simp, fun h => h old rfl⟩

theorem follows_objectLockOrDefault :
    (lockProtocol d t b k).FollowsE (objectLockOrDefault t b k) .idle
      (fun record s => ∃ lock now, s = .seen lock [now] ∧ Represents t b k lock record)
      fun _ _ => True := by
  refine .bind fun r hr => ?_
  obtain ⟨s, rfl⟩ := hr
  refine ⟨.seen (s.lookup (objectLockSlot t b k)) [], .read, .bind ?_⟩
  refine follows_nowMs.mono ?_ fun _ _ _ => trivial
  rintro now _ rfl
  exact ⟨_, now, rfl, represents_getD _ now⟩

theorem follows_ensureRetentionUpdateAllowed {record : ObjectLockRecord} {auth : AuthContext}
    (hplain : .adminRepair ∉ auth.claims.ops) (htimes : times ≠ []) (newUntil : Option UInt64)
    (newMode : Option String) :
    (lockProtocol d t b k).FollowsE (ensureRetentionUpdateAllowed record newUntil newMode auth)
      (.seen lock times)
      (fun _ s => ∃ times', s = .seen lock times' ∧ Checked record newUntil times')
      fun _ _ => True := by
  unfold ensureRetentionUpdateAllowed
  cases huntil : record.immutableUntilMs with
  | none =>
    obtain ⟨now, hnow⟩ := exists_mem_of_ne_nil times htimes
    exact ⟨times, rfl, now, hnow, by simp [huntil]⟩
  | some current =>
    refine follows_nowMs.andThen ?_
    rintro now _ rfl
    split
    · rename_i hended
      refine ⟨_, rfl, now, mem_cons_self, fun current' hcurrent hlt => ?_⟩
      rw [huntil] at hcurrent
      cases hcurrent
      exact absurd hlt (Nat.not_lt.2 hended)
    · refine follows_ofExcept fun _ hcheck => ⟨_, rfl, now, mem_cons_self, ?_⟩
      intro current' hcurrent _
      rw [huntil] at hcurrent
      cases hcurrent
      exact (prolongs_of_checkRetentionUpdate hcheck (.inl hplain)).2

theorem follows_putObjectRetention (hc : c.Plain b k) (newUntil : Option UInt64)
    (newMode : Option String) :
    (lockProtocol d t b k).FollowsE
      (putObjectRetention c.auth t c.bucket c.key newUntil newMode) .idle
      (fun _ s => s = .wrote (.retention newUntil newMode)) fun _ _ => True := by
  refine (follows_changeObject hc).andThen ?_
  rintro _ _ ⟨rfl, rfl⟩
  refine follows_objectLockOrDefault.andThen ?_
  rintro record _ ⟨lock, now, rfl, hrecord⟩
  refine (follows_ensureRetentionUpdateAllowed hc.unprivileged (by simp) newUntil
    newMode).andThen ?_
  rintro _ _ ⟨times, rfl, checkedAt, hchecked, hprolongs⟩
  refine follows_nowMs.andThen ?_
  rintro updatedAtMs _ rfl
  refine .bind fun r hr => ?_
  obtain ⟨s, rfl⟩ := hr
  have happlied : LockChange.Applied lock (updatedAtMs :: times)
      { record with immutableUntilMs := newUntil, mode := newMode, updatedAtMs }
      (.retention newUntil newMode) := by
    refine ⟨rfl, fun old hold => ?_⟩
    obtain rfl := hrecord.eq old hold
    exact ⟨rfl, checkedAt, mem_cons_of_mem _ hchecked, hprolongs⟩
  exact ⟨_, .write (fun hfiled => ⟨⟨rfl, rfl⟩, hrecord.filed hfiled⟩) happlied, rfl⟩

theorem follows_putObjectLegalHold (hc : c.Plain b k) (legalHold : Bool) :
    (lockProtocol d t b k).FollowsE (putObjectLegalHold c.auth t c.bucket c.key legalHold) .idle
      (fun _ s => s = .wrote (.legalHold legalHold)) fun _ _ => True := by
  refine (follows_changeObject hc).andThen ?_
  rintro _ _ ⟨rfl, rfl⟩
  refine follows_objectLockOrDefault.andThen ?_
  rintro record _ ⟨lock, now, rfl, hrecord⟩
  have hwrite (hallowed : record.legalHold → legalHold) :
      (lockProtocol d t b k).FollowsE (do
        let updatedAtMs ← nowMs
        let record := { record with legalHold, updatedAtMs }
        writeEncryptedJson (objectLockSlot record.tenantId record.bucket record.key) record
        return record) (.seen lock [now]) (fun _ s => s = .wrote (.legalHold legalHold))
        fun _ _ => True := by
    refine follows_nowMs.andThen ?_
    rintro updatedAtMs _ rfl
    refine .bind fun r hr => ?_
    obtain ⟨s, rfl⟩ := hr
    have happlied : LockChange.Applied lock [updatedAtMs, now]
        { record with legalHold, updatedAtMs } (.legalHold legalHold) := by
      refine ⟨rfl, fun old hold => ?_⟩
      obtain rfl := hrecord.eq old hold
      exact ⟨rfl, hallowed⟩
    refine ⟨_, .write (fun hfiled => ?_) happlied, rfl⟩
    exact ⟨hrecord.filed hfiled, hrecord.filed hfiled⟩
  dsimp only
  split
  · refine .bind (follows_ofExcept fun _ hrepair => ?_)
    rw [requireAdminRepair, if_neg hc.unprivileged] at hrepair
    cases hrepair
  · rename_i hkeeps
    refine hwrite fun hheld => ?_
    simpa [hheld] using hkeeps

/-- **A call takes its turns in order**, and if it succeeds, it has written what it sets. -/
theorem follows_lockCall (hc : c.Plain b k) :
    (lockProtocol d t b k).FollowsE (c.handle t) .idle (fun _ s => s = .wrote c.change)
      fun _ _ => True := by
  obtain ⟨auth, bucket, key, change⟩ := c
  cases change with
  | retention newUntil newMode => exact follows_putObjectRetention hc newUntil newMode
  | legalHold legalHold => exact follows_putObjectLegalHold hc legalHold

end Follows

/-! ### What calls have set stays -/

/-- The calls know what they have read, and what they have set is in the lock. -/
structure LocksKept {ι : Type} (d : Deployment) (t : TenantId) (b k : String)
    (st : ι → LockStage) (turns : List (ι × Action)) (s : Server) : Prop where
  filed : LocksFiled s
  times : ∀ i lock times, st i = .seen lock times → ∀ now ∈ times, now ≤ d.clock s.alpha.tick
  read : ∀ i lock times, st i = .seen lock times → ∀ old ∈ lock, old.Filed t b k
  current : ∀ i ∈ readers (objectLockSlot t b k) turns, ∀ lock times, st i = .seen lock times →
    s.lookup (objectLockSlot t b k) = lock
  held : ∀ i, st i = .wrote (.legalHold true) →
    ∃ lock, s.lookup (objectLockSlot t b k) = some lock ∧ lock.legalHold
  retained : ∀ i immutableUntil mode, st i = .wrote (.retention (some immutableUntil) mode) →
    d.clock s.alpha.tick < immutableUntil.toNat →
      ∃ lock longer, s.lookup (objectLockSlot t b k) = some lock ∧
        lock.immutableUntilMs = some longer ∧ immutableUntil ≤ longer

namespace LocksKept

variable {ι : Type} {st : ι → LockStage} {turns : List (ι × Action)} {s : Server}

theorem start (hs : LocksFiled s) : LocksKept d t b k (fun _ : ι => .idle) [] s where
  filed := hs
  times := nofun
  read := nofun
  current := nofun
  held := nofun
  retained := nofun

variable [DecidableEq ι] {i : ι}

/-- A turn that leaves the lock alone and after which nobody has set anything new. -/
theorem look (h : LocksKept d t b k st turns s) {stage : LockStage} {o : Action} {s' : Server}
    (hlookup : ∀ a, s'.lookup a = s.lookup a)
    (htick : d.clock s.alpha.tick ≤ d.clock s'.alpha.tick)
    (hwrote : ∀ change, stage ≠ .wrote change)
    (hseen : ∀ lock times, stage = .seen lock times →
      (∀ now ∈ times, now ≤ d.clock s'.alpha.tick) ∧ (∀ old ∈ lock, old.Filed t b k) ∧
        (i ∈ readers (objectLockSlot t b k) (turns ++ [(i, o)]) →
          s.lookup (objectLockSlot t b k) = lock))
    (halters : o.alters (objectLockSlot t b k) = false) :
    LocksKept d t b k (Function.update st i stage) (turns ++ [(i, o)]) s' := by
  have hreader {j : ι} (hj : j ≠ i)
      (h : j ∈ readers (objectLockSlot t b k) (turns ++ [(i, o)])) :
      j ∈ readers (objectLockSlot t b k) turns := by
    rw [readers_append, readersAfter, halters] at h
    split at h
    · exact (mem_cons.1 h).resolve_left hj
    · exact h
  constructor
  · exact h.filed.same fun a _ => hlookup a
  · intro j lock times hj
    rcases eq_or_ne j i with rfl | hne
    · rw [Function.update_self] at hj
      exact (hseen lock times hj).1
    · rw [Function.update_of_ne hne] at hj
      exact fun now hnow => (h.times j lock times hj now hnow).trans htick
  · intro j lock times hj
    rcases eq_or_ne j i with rfl | hne
    · rw [Function.update_self] at hj
      exact (hseen lock times hj).2.1
    · rw [Function.update_of_ne hne] at hj
      exact h.read j lock times hj
  · intro j hreads lock times hj
    rw [hlookup]
    rcases eq_or_ne j i with rfl | hne
    · rw [Function.update_self] at hj
      exact (hseen lock times hj).2.2 hreads
    · rw [Function.update_of_ne hne] at hj
      exact h.current j (hreader hne hreads) lock times hj
  · intro j hj
    rw [hlookup]
    rcases eq_or_ne j i with rfl | hne
    · rw [Function.update_self] at hj
      exact absurd hj (hwrote _)
    · rw [Function.update_of_ne hne] at hj
      exact h.held j hj
  · intro j immutableUntil mode hj hactive
    rw [hlookup]
    rcases eq_or_ne j i with rfl | hne
    · rw [Function.update_self] at hj
      exact absurd hj (hwrote _)
    · rw [Function.update_of_ne hne] at hj
      exact h.retained j immutableUntil mode hj (lt_of_le_of_lt htick hactive)

/-- A turn that writes the lock, by a call that has read it as it is. -/
theorem write (h : LocksKept d t b k st turns s) (hi : st i = .seen lock times)
    {change : LockChange} (hv : v.Filed t b k) (happlied : change.Applied lock times v)
    (hreads : i ∈ readers (objectLockSlot t b k) turns) :
    LocksKept d t b k (Function.update st i (.wrote change))
      (turns ++ [(i, .own (.write (objectLockSlot t b k) v))])
      (s.put (objectLockSlot t b k) v) := by
  have hlock := h.current i hreads lock times hi
  have hnobody : readers (objectLockSlot t b k)
      (turns ++ [(i, Action.own (.write (objectLockSlot t b k) v))]) = [] := by
    simp [readers_append, readersAfter, Action.reads, Action.alters]
  have hseen {j : ι} {lock' : Option ObjectLockRecord} {times' : List ℕ}
      (hj : Function.update st i (.wrote change) j = .seen lock' times') :
      st j = .seen lock' times' := by
    rcases eq_or_ne j i with rfl | hne
    · rw [Function.update_self] at hj
      cases hj
    · rwa [Function.update_of_ne hne] at hj
  constructor
  · exact h.filed.put hv
  · exact fun j lock' times' hj => h.times j lock' times' (hseen hj)
  · exact fun j lock' times' hj => h.read j lock' times' (hseen hj)
  · intro j hj
    rw [hnobody] at hj
    cases hj
  · intro j hj
    refine ⟨v, Server.lookup_put _ _ _, ?_⟩
    rcases eq_or_ne j i with rfl | hne
    · rw [Function.update_self] at hj
      cases hj
      exact happlied.1
    · rw [Function.update_of_ne hne] at hj
      obtain ⟨old, hold, hheld⟩ := h.held j hj
      exact happlied.held (hlock.symm.trans hold) hheld
  · intro j immutableUntil mode hj hactive
    rcases eq_or_ne j i with rfl | hne
    · rw [Function.update_self] at hj
      cases hj
      exact ⟨v, immutableUntil, Server.lookup_put _ _ _, happlied.1, UInt64.le_refl _⟩
    · rw [Function.update_of_ne hne] at hj
      obtain ⟨old, longer, hold, huntil, hle⟩ := h.retained j immutableUntil mode hj hactive
      have hlater : ∀ now ∈ times, now < longer.toNat := by
        intro now hnow
        have hearlier := h.times i lock times hi now hnow
        have hlong := UInt64.le_iff_toNat_le.1 hle
        rw [Server.put_alpha] at hactive
        omega
      obtain ⟨longest, hlongest, hle'⟩ := happlied.retained (hlock.symm.trans hold) huntil hlater
      exact ⟨v, longest, Server.lookup_put _ _ _, hlongest, UInt64.le_trans hle hle'⟩

/-- **A turn keeps what calls have set**, if it does not write the lock unless the call has read it
as it is. -/
theorem turn (hclock : Monotone d.clock) (h : LocksKept d t b k st turns s) {o : Action}
    {stage : LockStage} (hturn : LockTurn t b k (st i) o (act d o s).1 stage)
    (hreads : o.alters (objectLockSlot t b k) → i ∈ readers (objectLockSlot t b k) turns) :
    LocksKept d t b k (Function.update st i stage) (turns ++ [(i, o)]) (act d o s).2 := by
  generalize hi : st i = stage₀ at hturn
  generalize hr : (act d o s).1 = r at hturn
  cases hturn with
  | bucket ha => exact h.look (fun _ => rfl) le_rfl nofun nofun rfl
  | read =>
    have hlock := Except.ok.inj hr
    refine h.look (fun _ => rfl) le_rfl nofun (fun lock times hs => ?_) rfl
    cases hs
    refine ⟨nofun, fun old hold => ?_, fun _ => hlock⟩
    exact h.filed t _ old (hlock.trans hold)
  | @time lock times now =>
    have htick : d.clock s.alpha.tick ≤ d.clock s.ticked.alpha.tick := hclock (Nat.le_succ _)
    refine h.look (fun _ => rfl) htick nofun (fun lock' times' hs => ?_) rfl
    cases hs
    refine ⟨fun now' hnow => ?_, h.read i lock times hi, fun hi' => ?_⟩
    · rcases mem_cons.1 hnow with rfl | hnow
      · exact hr ▸ htick
      · exact (h.times i lock times hi now' hnow).trans htick
    · rw [readers_append] at hi'
      exact h.current i hi' lock times hi
  | write place applied =>
    obtain ⟨⟨rfl, rfl⟩, hv⟩ := place (h.read i _ _ hi)
    exact h.write hi hv applied (hreads (by simp [Action.alters]))

end LocksKept

/-- **What calls have set stays.**  Calls that change the lock of an object run at the same time, by
callers who may not repair, after other requests have been handled, and no call writes the lock
unless it has read it since it was last written.  When a call has succeeded, the legal hold it has
set is in the lock, and so is the retention it has set, or a longer one, until it ends. -/
theorem lock_updates_kept {ι : Type} [DecidableEq ι] (d : Deployment) (hclock : Monotone d.clock)
    (earlier : List Request) (t : TenantId) (b k : String) (calls : ι → LockCall)
    (hcalls : ∀ i, (calls i).Plain b k) (schedule : List ι) :
    let c := lockPool t calls (runRequests d earlier .empty)
    let c' := c.run (act d) schedule
    Pool.AlwaysSince (act d) (UpToDate (objectLockSlot t b k)) [] c schedule →
      ∀ i record, (c'.threads i).result? = some (.ok record) →
        ((calls i).change = .legalHold true →
          ∃ lock, c'.state.lookup (objectLockSlot t b k) = some lock ∧ lock.legalHold) ∧
        ∀ immutableUntil mode, (calls i).change = .retention (some immutableUntil) mode →
          d.clock c'.state.alpha.tick < immutableUntil.toNat →
            ∃ lock longer, c'.state.lookup (objectLockSlot t b k) = some lock ∧
              lock.immutableUntilMs = some longer ∧ immutableUntil ≤ longer := by
  intro c c' hG i record hresult
  have hf : c.Follows (lockProtocol d t b k)
      (fun i => (lockProtocol d t b k).post (fun _ s => s = .wrote (calls i).change)
        fun _ _ => True) fun _ => .idle :=
    fun i => follows_lockCall (hcalls i)
  have hstart : LocksKept d t b k (fun _ : ι => .idle) [] c.state :=
    .start (LocksFiled.runRequests earlier)
  have hrun := Pool.run_invariant_turns (P := lockProtocol d t b k)
    (G := UpToDate (objectLockSlot t b k)) (I := LocksKept d t b k)
    (fun _ c _ _ _ _ _ => ⟨c.state, rfl⟩) (fun c st turns i o next stage _ hI hGi hi hturn => ?_)
    hf [] hstart hG
  · obtain ⟨st, hf', hkept⟩ := hrun
    have hwrote := hf' i
    rw [Prog.result?_eq_some.1 hresult] at hwrote
    change st i = .wrote (calls i).change at hwrote
    refine ⟨fun hchange => hkept.held i (hchange ▸ hwrote), ?_⟩
    intro immutableUntil mode hchange
    exact hkept.retained i immutableUntil mode (hchange ▸ hwrote)
  · refine hI.turn hclock hturn fun halters => ?_
    unfold UpToDate at hGi
    rw [hi] at hGi
    simpa [Prog.next?, halters] using hGi

end Distribution

namespace Sample

open Hsp.Distribution

/-- One call sets the retention of an object, the other its legal hold. -/
def lockers : Bool → LockCall
  | false => ⟨writer "1", "b", "k", .retention (some 9) none⟩
  | true => ⟨writer "2", "b", "k", .legalHold true⟩

theorem lockers_plain (i : Bool) : (lockers i).Plain "b" "k" := by
  cases i <;> exact ⟨by decide +kernel, by decide +kernel, by decide⟩

/-- The two calls, on a server with a bucket. -/
def lockersPool : LockPool Bool :=
  lockPool tenant lockers
    (runRequests (deployment [] [] 0) [.createBucket (auth "0") tenant "b"] .empty)

/-- If the calls only read the bucket at the same time, both are in force. -/
theorem locks_both_kept :
    let schedule := [false, true] ++ List.replicate 4 false ++ List.replicate 4 true
    let c := lockersPool.run (act (deployment [] [] 0)) schedule
    ((∃ lock, c.state.lookup (objectLockSlot tenant "b" "k") = some lock ∧ lock.legalHold) ∧
      ∃ lock longer, c.state.lookup (objectLockSlot tenant "b" "k") = some lock ∧
        lock.immutableUntilMs = some longer ∧ 9 ≤ longer) := by
  intro schedule c
  have ⟨hG, hretained, hheld⟩ :
      Pool.AlwaysSince (act (deployment [] [] 0)) (UpToDate (objectLockSlot tenant "b" "k")) []
        lockersPool schedule ∧
      (c.threads false).result? = some (.ok ⟨tenant, "b", "k", some 9, false, none, 0⟩) ∧
      (c.threads true).result? = some (.ok ⟨tenant, "b", "k", some 9, true, none, 0⟩) := by
    decide +kernel
  have hkept := lock_updates_kept (deployment [] [] 0) monotone_const
    [.createBucket (auth "0") tenant "b"] tenant "b" "k" lockers lockers_plain schedule hG
  exact ⟨(hkept true _ hheld).1 rfl, (hkept false _ hretained).2 9 none rfl (by decide +kernel)⟩

/-- **A legal hold is lost.**  The call that sets the retention has read the lock before the legal
hold was set, and writes it back without. -/
theorem legal_hold_lost :
    let schedule := List.replicate 2 false ++ List.replicate 5 true ++ List.replicate 3 false
    let c := lockersPool.run (act (deployment [] [] 0)) schedule
    (c.threads true).result?.any Except.isOk ∧
      c.state.lookup (objectLockSlot tenant "b" "k") =
        some ⟨tenant, "b", "k", some 9, false, none, 0⟩ := by
  decide +kernel

end Sample

end Hsp
