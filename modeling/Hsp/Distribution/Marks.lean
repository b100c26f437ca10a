import Hsp.Distribution.Locks
import Hsp.Distribution.Recreation

/-!
# Locks and access control lists of single objects

The retention, the legal hold and the access control list of an object are kept in records that are
found under the name of the bucket and the key, joined by a dash.

* `MarkStep` : what a request that sets one of them does to the entries of the server, which is to
  write one record or none;
* `marks_apart_iff` : such requests change nothing that can be told of another object exactly if the
  joined names of the two objects differ;
* `Sample.marks_shared` : a bucket whose name has a dash shares its records with another one.
-/

namespace Hsp

open String

namespace Distribution

variable {d : Deployment} {t : TenantId} {s s' : Server} {b k b₁ k₁ b₂ k₂ : String}

/-! ### Locks are filed where they belong -/

/-- Locks are kept where they say they belong. -/
def LocksFiled (s : Server) : Prop :=
  ∀ t name lock, s.lookup ⟨.objectLock, t, name⟩ = some lock →
    lock.tenantId = t ∧ objectLockStoreKey lock.bucket lock.key = name

namespace LocksFiled

theorem same (h : LocksFiled s)
    (hs : ∀ a : Slot, a.kind = .objectLock → s'.lookup a = s.lookup a) : LocksFiled s' :=
  fun t name lock hlock => h t name lock ((hs _ rfl).symm.trans hlock)

theorem put (h : LocksFiled s) {name : String} {v : ObjectLockRecord}
    (hv : v.tenantId = t ∧ objectLockStoreKey v.bucket v.key = name) :
    LocksFiled (s.put ⟨.objectLock, t, name⟩ v) := by
  intro t' name' lock hlock
  by_cases heq : (⟨.objectLock, t', name'⟩ : Slot) = ⟨.objectLock, t, name⟩
  · obtain ⟨-, rfl, rfl⟩ := Slot.mk.inj heq
    rw [Server.lookup_put] at hlock
    cases hlock
    exact hv
  · rw [Server.lookup_put_of_ne heq] at hlock
    exact h t' name' lock hlock

end LocksFiled

/-! ### What is written -/

/-- The lock of an object, or one that locks nothing. -/
def Server.lockAt (s : Server) (t : TenantId) (bucket key : String) (now : ℕ) : ObjectLockRecord :=
  (s.lookup (objectLockSlot t bucket key)).getD ⟨t, bucket, key, none, false, none, now⟩

theorem LocksFiled.lockAt (hs : LocksFiled s) (t : TenantId) (b k : String) (now : ℕ) :
    (s.lockAt t b k now).tenantId = t ∧
      objectLockStoreKey (s.lockAt t b k now).bucket (s.lockAt t b k now).key =
        objectLockStoreKey b k := by
  unfold Server.lockAt
  cases hlock : s.lookup (objectLockSlot t b k) with
  | none => exact ⟨rfl, rfl⟩
  | some lock => exact hs _ _ _ hlock

/-- What a request that sets the retention, the legal hold or the access control list of an object
does to the entries of a server. -/
inductive MarkStep (d : Deployment) (s : Server) : Request → Server → Prop where
  | unchanged {r : Request} {s' : Server} (entries : ∀ a, s'.lookup a = s.lookup a) :
      MarkStep d s r s'
  | retention {auth : AuthContext} {t : TenantId} {bucket key b k : String}
      {immutableUntilMs : Option UInt64} {mode : Option String} {s' : Server}
      (now checked written : ℕ) (hbucket : canonicalBucketName bucket = .ok b)
      (hkey : canonicalObjectKeyName key = .ok k) (hle : checked ≤ written)
      (hread : s.alpha.tick ≤ written ∧ written < s'.alpha.tick)
      (allowed : ∀ current, (s.lockAt t b k now).immutableUntilMs = some current →
        d.clock checked < current.toNat →
        checkRetentionUpdate (s.lockAt t b k now) current immutableUntilMs mode auth = .ok ())
      (entries : ∀ a, s'.lookup a = (s.put (objectLockSlot t b k)
        { s.lockAt t b k now with
          immutableUntilMs, mode, updatedAtMs := d.clock written }).lookup a) :
      MarkStep d s (.putObjectRetention auth t bucket key immutableUntilMs mode) s'
  | legalHold {auth : AuthContext} {t : TenantId} {bucket key b k : String} {legalHold : Bool}
      {s' : Server} (now written : ℕ) (hbucket : canonicalBucketName bucket = .ok b)
      (hkey : canonicalObjectKeyName key = .ok k)
      (hread : s.alpha.tick ≤ written ∧ written < s'.alpha.tick)
      (allowed : (s.lockAt t b k now).legalHold → legalHold = false →
        .adminRepair ∈ auth.claims.ops)
      (entries : ∀ a, s'.lookup a = (s.put (objectLockSlot t b k)
        { s.lockAt t b k now with legalHold, updatedAtMs := d.clock written }).lookup a) :
      MarkStep d s (.putObjectLegalHold auth t bucket key legalHold) s'
  | acl {auth : AuthContext} {t : TenantId} {bucket key b k : String} {acl : CannedAcl}
      {s' : Server} (written : ℕ) (hbucket : canonicalBucketName bucket = .ok b)
      (hkey : canonicalObjectKeyName key = .ok k)
      (entries : ∀ a, s'.lookup a =
        (s.put (objectAclSlot t b k) ⟨t, b, k, acl, d.clock written⟩).lookup a) :
      MarkStep d s (.putObjectAcl auth t bucket key acl) s'

theorem changeObject_cases (auth : AuthContext) (t : TenantId) (bucket key : String) :
    (∃ e, runE (act d) (changeObject auth t bucket key) s = (.error e, s)) ∨
      ∃ b k, canonicalBucketName bucket = .ok b ∧ canonicalObjectKeyName key = .ok k ∧
        runE (act d) (changeObject auth t bucket key) s = (.ok (b, k), s) := by
  unfold changeObject
  cases hbucket : canonicalBucketName bucket with
  | error e => exact .inl ⟨e, rfl⟩
  | ok b =>
    rw [runE_ofExcept_bind]
    cases hkey : canonicalObjectKeyName key with
    | error e => exact .inl ⟨e, rfl⟩
    | ok k =>
      rw [runE_ofExcept_bind]
      cases hscope : ensureBucketMutationScopeFor auth t (some b) (some k) with
      | error e => exact .inl ⟨e, rfl⟩
      | ok _ =>
        rw [runE_ofExcept_bind]
        rcases hbucket' : (runE (act d) (requireBucket t b) s).1 with e | record
        · refine .inl ⟨e, runE_bind_error _ ?_⟩
          rw [runE_requireBucket, hbucket']
        · refine .inr ⟨b, k, rfl, rfl, ?_⟩
          rw [runE_bind_ok _ ((runE_requireBucket b).trans (by rw [hbucket']))]
          rfl

theorem runE_ensureRetentionUpdateAllowed (current : ObjectLockRecord) (newUntil : Option UInt64)
    (newMode : Option String) (auth : AuthContext) :
    ∃ r s', runE (act d) (ensureRetentionUpdateAllowed current newUntil newMode auth) s =
        (r, s') ∧ (∀ a, s'.lookup a = s.lookup a) ∧ s.alpha.tick ≤ s'.alpha.tick ∧
      (r = .ok () → ∀ currentUntil, current.immutableUntilMs = some currentUntil →
        d.clock s.alpha.tick < currentUntil.toNat →
          checkRetentionUpdate current currentUntil newUntil newMode auth = .ok ()) := by
  unfold ensureRetentionUpdateAllowed
  cases hcurrent : current.immutableUntilMs with
  | none => exact ⟨.ok (), s, rfl, fun _ => rfl, le_rfl, by simp⟩
  | some currentUntil =>
    dsimp only
    rw [runE_bind_ok _ (runE_nowMs d s)]
    by_cases hnow : d.clock s.alpha.tick ≥ currentUntil.toNat
    · rw [if_pos hnow]
      refine ⟨.ok (), s.ticked, rfl, fun _ => rfl, Nat.le_succ _, fun _ u hu hlt => ?_⟩
      cases hu
      exact absurd hlt (Nat.not_lt.2 hnow)
    · rw [if_neg hnow, runE_ofExcept]
      refine ⟨_, s.ticked, rfl, fun _ => rfl, Nat.le_succ _, fun hok u hu _ => ?_⟩
      cases hu
      exact hok

theorem Server.lookup_put_congr (h : ∀ a, s'.lookup a = s.lookup a) (b : Slot) (v : b.Val)
    (a : Slot) : (s'.put b v).lookup a = (s.put b v).lookup a := by
  by_cases hab : a = b
  · subst hab
    rw [Server.lookup_put, Server.lookup_put]
  · rw [Server.lookup_put_of_ne hab, Server.lookup_put_of_ne hab, h]

theorem Server.lookup_put_lock {t' : TenantId} {name name' : String} (ht : t' = t)
    (hname : name' = name) (lock : ObjectLockRecord) (a : Slot) :
    (s.put ⟨.objectLock, t', name'⟩ lock).lookup a =
      (s.put ⟨.objectLock, t, name⟩ lock).lookup a := by
  rw [ht, hname]

/-- The retention of an object is not changed, or it is updated after a check. -/
theorem putObjectRetention_cases (auth : AuthContext) (bucket key : String)
    (immutableUntilMs : Option UInt64) (mode : Option String) :
    let s' := (runE (act d) (putObjectRetention auth t bucket key immutableUntilMs mode) s).2
    (∀ a, s'.lookup a = s.lookup a) ∨ ∃ b k now checked written,
      (canonicalBucketName bucket = .ok b ∧ canonicalObjectKeyName key = .ok k) ∧
      (s.alpha.tick ≤ checked ∧ checked ≤ written ∧ written < s'.alpha.tick) ∧
      (∀ current, (s.lockAt t b k now).immutableUntilMs = some current →
        d.clock checked < current.toNat →
        checkRetentionUpdate (s.lockAt t b k now) current immutableUntilMs mode auth = .ok ()) ∧
      ∀ a, s'.lookup a = (s.put (objectLockSlot t b k) { s.lockAt t b k now with
        immutableUntilMs, mode, updatedAtMs := d.clock written }).lookup a := by
  unfold putObjectRetention
  rcases changeObject_cases auth t bucket key (d := d) (s := s) with
    ⟨e, herror⟩ | ⟨b, k, hbucket, hkey, hok⟩
  · rw [runE_bind_error _ herror]
    exact .inl fun _ => rfl
  · have hlock : runE (act d) (objectLockOrDefault t b k) s =
        (.ok (s.lockAt t b k (d.clock s.alpha.tick)), s.ticked) := rfl
    rw [runE_bind_ok _ hok]
    dsimp only
    rw [runE_bind_ok _ hlock]
    obtain ⟨r, s₁, hrun, hlookup, hle, hallowed⟩ := runE_ensureRetentionUpdateAllowed
      (d := d) (s := s.ticked) (s.lockAt t b k (d.clock s.alpha.tick)) immutableUntilMs mode auth
    cases r with
    | error e =>
      rw [runE_bind_error _ hrun]
      exact .inl hlookup
    | ok _ =>
      rw [runE_bind_ok _ hrun, runE_bind_ok _ (runE_nowMs d s₁),
        runE_bind_ok _ (runE_writeEncryptedJson d s₁.ticked _ _)]
      exact .inr ⟨b, k, _, _, _, ⟨hbucket, hkey⟩, ⟨Nat.le_succ _, hle, Nat.lt_succ_self _⟩,
        hallowed rfl, Server.lookup_put_congr hlookup _ _⟩

theorem markStep_retention (auth : AuthContext) (bucket key : String)
    (immutableUntilMs : Option UInt64) (mode : Option String) :
    MarkStep d s (.putObjectRetention auth t bucket key immutableUntilMs mode)
      (runE (act d) (putObjectRetention auth t bucket key immutableUntilMs mode) s).2 := by
  rcases putObjectRetention_cases auth bucket key immutableUntilMs mode with
    hsame | ⟨b, k, now, checked, written, ⟨hbucket, hkey⟩, ⟨hstart, hle, hend⟩, hallowed,
      entries⟩
  · exact .unchanged hsame
  · exact .retention now checked written hbucket hkey hle ⟨hstart.trans hle, hend⟩ hallowed entries

theorem markStep_legalHold (hs : LocksFiled s) (auth : AuthContext) (bucket key : String)
    (legalHold : Bool) :
    MarkStep d s (.putObjectLegalHold auth t bucket key legalHold)
      (runE (act d) (putObjectLegalHold auth t bucket key legalHold) s).2 := by
  unfold putObjectLegalHold
  rcases changeObject_cases auth t bucket key (d := d) (s := s) with
    ⟨e, herror⟩ | ⟨b, k, hbucket, hkey, hok⟩
  · rw [runE_bind_error _ herror]
    exact .unchanged fun _ => rfl
  · have hlock : runE (act d) (objectLockOrDefault t b k) s =
        (.ok (s.lockAt t b k (d.clock s.alpha.tick)), s.ticked) := rfl
    rw [runE_bind_ok _ hok]
    dsimp only
    rw [runE_bind_ok _ hlock]
    -- The record is written where it says it belongs, which is where it was read.
    obtain ⟨htenant, hname⟩ := hs.lockAt t b k (d.clock s.alpha.tick)
    have hwrite (lock : ObjectLockRecord) (a : Slot) :
        (s.ticked.ticked.put (objectLockSlot (s.lockAt t b k (d.clock s.alpha.tick)).tenantId
          (s.lockAt t b k (d.clock s.alpha.tick)).bucket
          (s.lockAt t b k (d.clock s.alpha.tick)).key) lock).lookup a =
        (s.put (objectLockSlot t b k) lock).lookup a :=
      (Server.lookup_put_lock htenant hname lock a).trans
        (Server.lookup_put_congr (fun _ => rfl) _ _ a)
    have hread : s.alpha.tick ≤ s.alpha.tick + 1 ∧ s.alpha.tick + 1 < s.alpha.tick + 1 + 1 := by
      omega
    split
    · rename_i hreleases
      cases hrepair : requireAdminRepair auth "legal_hold_active" with
      | error e => exact .unchanged fun _ => rfl
      | ok _ =>
        rw [runE_ofExcept_bind, runE_bind_ok _ (runE_nowMs d s.ticked),
          runE_bind_ok _ (runE_writeEncryptedJson d s.ticked.ticked _ _)]
        refine .legalHold _ _ hbucket hkey hread (fun _ _ => ?_) (hwrite _)
        unfold requireAdminRepair at hrepair
        split at hrepair
        · assumption
        · cases hrepair
    · rename_i hkeeps
      rw [runE_bind_ok _ (runE_nowMs d s.ticked),
        runE_bind_ok _ (runE_writeEncryptedJson d s.ticked.ticked _ _)]
      refine .legalHold _ _ hbucket hkey hread (fun hheld hoff => ?_) (hwrite _)
      rw [hheld, hoff] at hkeeps
      exact absurd rfl hkeeps

theorem markStep_acl (auth : AuthContext) (bucket key : String) (acl : CannedAcl) :
    MarkStep d s (.putObjectAcl auth t bucket key acl)
      (runE (act d) (putObjectAcl auth t bucket key acl) s).2 := by
  unfold putObjectAcl
  rcases changeObject_cases auth t bucket key (d := d) (s := s) with
    ⟨e, herror⟩ | ⟨b, k, hbucket, hkey, hok⟩
  · rw [runE_bind_error _ herror]
    exact .unchanged fun _ => rfl
  · rw [runE_bind_ok _ hok]
    dsimp only
    rw [runE_bind_ok _ (runE_nowMs d s), runE_bind_ok _ (runE_writeEncryptedJson d s.ticked _ _)]
    exact .acl _ hbucket hkey (Server.lookup_put_congr (fun _ => rfl) _ _)

theorem markStep_of_writes (hs : LocksFiled s) {r : Request} (hr : .objectLock ∈ r.writes) :
    MarkStep d s r (r.perform d s).2 := by
  cases r with
  | putObjectRetention auth t bucket key immutableUntilMs mode =>
    exact markStep_retention auth bucket key immutableUntilMs mode
  | putObjectLegalHold auth t bucket key legalHold =>
    exact markStep_legalHold hs auth bucket key legalHold
  | _ => simp [Request.writes] at hr

theorem MarkStep.locksFiled {r : Request} (h : MarkStep d s r s') (hs : LocksFiled s) :
    LocksFiled s' := by
  cases h with
  | unchanged entries => exact hs.same fun a _ => entries a
  | retention now checked written _ _ _ _ _ entries =>
    refine .same (hs.put ?_) fun a _ => entries a
    exact hs.lockAt _ _ _ now
  | legalHold now written _ _ _ _ entries =>
    refine .same (hs.put ?_) fun a _ => entries a
    exact hs.lockAt _ _ _ now
  | acl written _ _ entries =>
    refine hs.same fun a ha => (entries a).trans (Server.lookup_put_of_ne ?_ _)
    rintro rfl
    cases ha

theorem LocksFiled.perform (r : Request) (s : Server) (h : LocksFiled s) :
    LocksFiled (r.perform d s).2 := by
  by_cases hr : .objectLock ∈ r.writes
  · exact (markStep_of_writes h hr).locksFiled h
  · exact h.same fun a ha => r.lookup_perform s (ha ▸ hr)

theorem LocksFiled.runRequests (requests : List Request) :
    LocksFiled (runRequests d requests .empty) :=
  runRequests_invariant perform requests fun t name lock hlock => by
    simp [Server.lookup, Server.empty] at hlock

/-! ### What can be told of an object -/

/-- The request sets the retention, the legal hold or the access control list of an object. -/
def Request.Marks (t : TenantId) (b k : String) : Request → Prop
  | .putObjectRetention _ t' bucket key _ _ | .putObjectLegalHold _ t' bucket key _
  | .putObjectAcl _ t' bucket key _ =>
    t' = t ∧ canonicalBucketName bucket = .ok b ∧ canonicalObjectKeyName key = .ok k
  | _ => False

theorem Request.Marks.step {r : Request} (hr : r.Marks t b k) (hs : LocksFiled s) :
    MarkStep d s r (r.perform d s).2 := by
  cases r with
  | putObjectRetention auth t' bucket key immutableUntilMs mode =>
    exact markStep_retention auth bucket key immutableUntilMs mode
  | putObjectLegalHold auth t' bucket key legalHold =>
    exact markStep_legalHold hs auth bucket key legalHold
  | putObjectAcl auth t' bucket key acl => exact markStep_acl auth bucket key acl
  | _ => exact hr.elim

theorem names_unique {t' : TenantId} {bucket key b' k' : String}
    (hnames : t' = t ∧ canonicalBucketName bucket = .ok b ∧ canonicalObjectKeyName key = .ok k)
    (hbucket : canonicalBucketName bucket = .ok b') (hkey : canonicalObjectKeyName key = .ok k') :
    t' = t ∧ b' = b ∧ k' = k :=
  ⟨hnames.1, Except.ok.inj (hbucket.symm.trans hnames.2.1),
    Except.ok.inj (hkey.symm.trans hnames.2.2)⟩

/-- The server at another time. -/
def Server.atTick (s : Server) (tick : ℕ) : Server := { s with alpha := { s.alpha with tick } }

/-- Two servers cannot be told apart, at the same time, by what they answer about the lock and the
access control list of an object, and by what they allow because of them. -/
structure SameMarks (d : Deployment) (t : TenantId) (b k : String) (s s' : Server) : Prop where
  objectLock : ∀ tick auth bucket key, canonicalBucketName bucket = .ok b →
    canonicalObjectKeyName key = .ok k →
      (Prog.runE (act d) (getObjectLock auth t bucket key) (s'.atTick tick)).1 =
        (Prog.runE (act d) (getObjectLock auth t bucket key) (s.atTick tick)).1
  objectAcl : ∀ tick auth bucket key, canonicalBucketName bucket = .ok b →
    canonicalObjectKeyName key = .ok k →
      (Prog.runE (act d) (getObjectAcl auth t bucket key) (s'.atTick tick)).1 =
        (Prog.runE (act d) (getObjectAcl auth t bucket key) (s.atTick tick)).1
  unlocked : ∀ tick auth deleteOp,
    (Prog.runE (act d) (ensureObjectMutationUnlocked t b k deleteOp auth) (s'.atTick tick)).1 =
      (Prog.runE (act d) (ensureObjectMutationUnlocked t b k deleteOp auth) (s.atTick tick)).1
  reads : ∀ tick auth,
    (Prog.runE (act d) (ensureBucketReadScopeFor auth t b (some k)) (s'.atTick tick)).1 =
      (Prog.runE (act d) (ensureBucketReadScopeFor auth t b (some k)) (s.atTick tick)).1

theorem checkUnlocked_congr (htick : s'.alpha.tick = s.alpha.tick) (lock : ObjectLockRecord)
    (deleteOp : Bool) (auth : AuthContext) :
    (runE (act d) (checkUnlocked lock deleteOp auth) s').1 =
      (runE (act d) (checkUnlocked lock deleteOp auth) s).1 := by
  unfold checkUnlocked
  by_cases hheld : lock.legalHold
  · simp [rejectIf, hheld]
  · have hpass (s : Server) : runE (act d) (rejectIf lock.legalHold
        ⟨.conflict, "legal_hold_active", "object is under legal hold"⟩) s = (.ok (), s) := by
      rw [runE_rejectIf, if_neg hheld]
    rw [runE_bind_ok _ (hpass s'), runE_bind_ok _ (hpass s)]
    cases lock.immutableUntilMs with
    | none => rfl
    | some immutableUntil =>
      dsimp only
      rw [runE_bind_ok _ (runE_nowMs d _), runE_bind_ok _ (runE_nowMs d _), htick,
        runE_rejectIf, runE_rejectIf]

theorem SameMarks.of_lookup
    (hlock : s'.lookup (objectLockSlot t b k) = s.lookup (objectLockSlot t b k))
    (hacl : s'.lookup (objectAclSlot t b k) = s.lookup (objectAclSlot t b k))
    (hbucket : ∀ a : Slot, a.kind ≠ .objectLock → a.kind ≠ .objectAcl → s'.lookup a = s.lookup a) :
    SameMarks d t b k s s' := by
  have hscope (tick : ℕ) (auth : AuthContext) :
      readScope (s'.atTick tick) auth t b (some k) =
        readScope (s.atTick tick) auth t b (some k) := by
    have hbucketAcl : (s'.atTick tick).lookup (bucketAclSlot t b) =
        (s.atTick tick).lookup (bucketAclSlot t b) := hbucket _ (by simp) (by simp)
    have hobjectAcl : (s'.atTick tick).lookup (objectAclSlot t b k) =
        (s.atTick tick).lookup (objectAclSlot t b k) := hacl
    rw [readScope, readScope, hbucketAcl, Option.any_some, Option.any_some, hobjectAcl]
  have hrequired (tick : ℕ) : (runE (act d) (requireBucket t b) (s'.atTick tick)).1 =
      (runE (act d) (requireBucket t b) (s.atTick tick)).1 := by
    unfold requireBucket
    cases canonicalBucketName b with
    | error e => rfl
    | ok name =>
      have hrecord : (s'.atTick tick).lookup (bucketSlot t name) =
          (s.atTick tick).lookup (bucketSlot t name) := hbucket _ (by simp) (by simp)
      rw [runE_ofExcept_bind, runE_ofExcept_bind, bucketRecord, runE_read_bind, runE_read_bind,
        hrecord]
      cases (s.atTick tick).lookup (bucketSlot t name) <;> rfl
  constructor
  · intro tick auth bucket key hb hk
    have hrecord : (s'.atTick tick).lookup (objectLockSlot t b k) =
        (s.atTick tick).lookup (objectLockSlot t b k) := hlock
    rw [getObjectLock_eq hb hk, getObjectLock_eq hb hk, hscope, hrecord]
    rfl
  · intro tick auth bucket key hb hk
    have hrecord : (s'.atTick tick).lookup (objectAclSlot t b k) =
        (s.atTick tick).lookup (objectAclSlot t b k) := hacl
    rw [getObjectAcl_eq hb hk, getObjectAcl_eq hb hk, hscope, hrequired, hrecord]
    rfl
  · intro tick auth deleteOp
    have hrecord : (s'.atTick tick).lookup (objectLockSlot t b k) =
        (s.atTick tick).lookup (objectLockSlot t b k) := hlock
    rw [ensureObjectMutationUnlocked, runE_read_bind, runE_read_bind, hrecord]
    cases (s.atTick tick).lookup (objectLockSlot t b k) with
    | none => rfl
    | some lock =>
      have htick : (s'.atTick tick).alpha.tick = (s.atTick tick).alpha.tick := rfl
      exact checkUnlocked_congr htick lock deleteOp auth
  · intro tick auth
    rw [runE_ensureBucketReadScopeFor, runE_ensureBucketReadScopeFor, hscope]

theorem SameMarks.of_put {a : Slot} {v : a.Val}
    (entries : ∀ a', s'.lookup a' = (s.put a v).lookup a')
    (hother : a.kind = .objectLock ∧ objectLockSlot t b k ≠ a ∨
      a.kind = .objectAcl ∧ objectAclSlot t b k ≠ a) : SameMarks d t b k s s' := by
  have hkeep {a' : Slot} (hne : a' ≠ a) : s'.lookup a' = s.lookup a' := by
    rw [entries, Server.lookup_put_of_ne hne]
  have hkind {a' : Slot} (hne : a'.kind ≠ a.kind) : s'.lookup a' = s.lookup a' :=
    hkeep fun heq => hne (congrArg Slot.kind heq)
  rcases hother with ⟨hlock, hne⟩ | ⟨hacl, hne⟩
  · exact .of_lookup (hkeep hne) (hkind (by simp [hlock]))
      fun a' hlock' _ => hkind (hlock ▸ hlock')
  · exact .of_lookup (hkind (by simp [hacl])) (hkeep hne) fun a' _ hacl' => hkind (hacl ▸ hacl')

/-! ### Objects apart -/

/-- **Requests that mark an object leave other objects alone**, if the joined names of the two
objects differ. -/
theorem sameMarks_of_ne (d : Deployment) (requests : List Request)
    (hapart : b₁ ++ "-" ++ k₁ ≠ b₂ ++ "-" ++ k₂) {r : Request} (hr : r.Marks t b₁ k₁) :
    SameMarks d t b₂ k₂ (runRequests d requests .empty)
      (r.perform d (runRequests d requests .empty)).2 := by
  have hlock : objectLockSlot t b₂ k₂ ≠ objectLockSlot t b₁ k₁ := by
    simpa [objectLockStoreKey, append_assoc, eq_comm] using hapart
  have hacl : objectAclSlot t b₂ k₂ ≠ objectAclSlot t b₁ k₁ := by
    simpa [objectAclStoreKey, append_assoc, eq_comm] using hapart
  have hstep : MarkStep d _ r (r.perform d (runRequests d requests .empty)).2 :=
    hr.step (LocksFiled.runRequests requests)
  generalize runRequests d requests .empty = s at hstep ⊢
  generalize (r.perform d s).2 = s' at hstep ⊢
  cases hstep with
  | unchanged entries => exact .of_lookup (entries _) (entries _) fun a _ _ => entries a
  | retention now checked written hbucket hkey hle hread allowed entries =>
    obtain ⟨rfl, rfl, rfl⟩ := names_unique hr hbucket hkey
    exact .of_put entries (.inl ⟨rfl, hlock⟩)
  | legalHold now written hbucket hkey hread allowed entries =>
    obtain ⟨rfl, rfl, rfl⟩ := names_unique hr hbucket hkey
    exact .of_put entries (.inl ⟨rfl, hlock⟩)
  | acl written hbucket hkey entries =>
    obtain ⟨rfl, rfl, rfl⟩ := names_unique hr hbucket hkey
    exact .of_put entries (.inr ⟨rfl, hacl⟩)

/-- A caller who may change all objects of a tenant. -/
def holder (t : TenantId) : AuthContext where
  claims := {
    iss := "", sub := "", aud := "", exp := 0, nbf := none, jti := none, ops := [.write]
    tenantId := t, namespacePrefix := none, pathPrefix := none, maxObjectSize := none
    storageClasses := [], keyPolicyId := none, metadataVisibility := none }
  channelBinding := none

theorem holder_scope (t : TenantId) (bucket key : Option String) :
    ensureBucketMutationScopeFor (holder t) t bucket key = .ok () := by
  simp [ensureBucketMutationScopeFor, ensureTenantMatches, ensureBucketScopeMatches, ensureScope,
    holder]

theorem createBucket_holder (d : Deployment) (t : TenantId) (hb : canonicalBucketName b = .ok b) :
    ∃ record, (runRequests d [.createBucket (holder t) t b] .empty).lookup (bucketSlot t b) =
        some record ∧
      ∀ a : Slot, a.kind = .objectLock →
        (runRequests d [.createBucket (holder t) t b] .empty).lookup a = none := by
  have hcreated : ∃ record,
      ((Request.createBucket (holder t) t b).perform d .empty).1 = .ok record := by
    rw [Request.perform, Request.handle, createBucket, hb, runE_ofExcept_bind, holder_scope,
      runE_ofExcept_bind]
    exact ⟨_, rfl⟩
  obtain ⟨record, hcreated⟩ := hcreated
  refine ⟨record, lookup_bucketSlot_of_create hb hcreated, fun a ha => ?_⟩
  exact (Request.lookup_perform _ _ (by simp [ha, Request.writes])).trans
    (by simp [Server.lookup, Server.empty])

theorem legalHold_holder (d : Deployment) (hb : canonicalBucketName b = .ok b)
    (hk : canonicalObjectKeyName k = .ok k) {record : BucketRecord}
    (hbucket : s.lookup (bucketSlot t b) = some record)
    (hlock : s.lookup (objectLockSlot t b k) = none) :
    ∃ lock, ((Request.putObjectLegalHold (holder t) t b k true).perform d s).2.lookup
      (objectLockSlot t b k) = some lock ∧ lock.legalHold = true := by
  have hrequired : runE (act d) (requireBucket t b) s = (.ok record, s) := by
    rw [runE_requireBucket, requireBucket_registered hb hbucket]
  have hchange : runE (act d) (changeObject (holder t) t b k) s = (.ok (b, k), s) := by
    rw [changeObject, hb, runE_ofExcept_bind, hk, runE_ofExcept_bind, holder_scope,
      runE_ofExcept_bind, runE_bind_ok _ hrequired]
    rfl
  have hdefault : runE (act d) (objectLockOrDefault t b k) s =
      (.ok ⟨t, b, k, none, false, none, d.clock s.alpha.tick⟩, s.ticked) := by
    rw [objectLockOrDefault, runE_read_bind, hlock]
    rfl
  rw [Request.perform, Request.handle, putObjectLegalHold, runE_bind_ok _ hchange,
    runE_bind_ok _ hdefault]
  exact ⟨_, Server.lookup_put .., rfl⟩

/-- No request that marks the first object, in any run, changes what is known of the second. -/
def MarksApart (d : Deployment) (t : TenantId) (b₁ k₁ b₂ k₂ : String) : Prop :=
  ∀ (requests : List Request) (r : Request), r.Marks t b₁ k₁ →
    SameMarks d t b₂ k₂ (runRequests d requests .empty)
      (r.perform d (runRequests d requests .empty)).2

/-- **Locks and access control lists belong to one object** if its joined name differs from that of
the other object, and only then if its bucket and key can be named as they are. -/
theorem marks_apart_iff (d : Deployment) (t : TenantId) (b₁ k₁ b₂ k₂ : String) :
    (b₁ ++ "-" ++ k₁ ≠ b₂ ++ "-" ++ k₂ → MarksApart d t b₁ k₁ b₂ k₂) ∧
      (canonicalBucketName b₁ = .ok b₁ → canonicalObjectKeyName k₁ = .ok k₁ →
        (MarksApart d t b₁ k₁ b₂ k₂ ↔ b₁ ++ "-" ++ k₁ ≠ b₂ ++ "-" ++ k₂)) := by
  have hif (hapart : b₁ ++ "-" ++ k₁ ≠ b₂ ++ "-" ++ k₂) : MarksApart d t b₁ k₁ b₂ k₂ :=
    fun requests r hr => sameMarks_of_ne d requests hapart hr
  refine ⟨hif, fun hb hk => ⟨fun hsame heq => ?_, hif⟩⟩
  have hname : objectLockStoreKey b₂ k₂ = objectLockStoreKey b₁ k₁ := by
    simpa [objectLockStoreKey, append_assoc] using heq.symm
  obtain ⟨record, hbucket, hnone⟩ := createBucket_holder d t hb
  obtain ⟨lock, hlock, hheld⟩ := legalHold_holder d hb hk hbucket (hnone _ rfl)
  have hunlocked := (hsame [.createBucket (holder t) t b₁]
    (.putObjectLegalHold (holder t) t b₁ k₁ true) ⟨rfl, hb, hk⟩).unlocked 0 (holder t) false
  generalize runRequests d [.createBucket (holder t) t b₁] .empty = s at *
  generalize ((Request.putObjectLegalHold (holder t) t b₁ k₁ true).perform d s).2 = s' at *
  -- The hold on the one object is found by the check of the other.
  have hfound : (s'.atTick 0).lookup (objectLockSlot t b₂ k₂) = some lock := by
    change (s'.atTick 0).lookup ⟨.objectLock, t, objectLockStoreKey b₂ k₂⟩ = some lock
    rw [hname]
    exact hlock
  have hfree : (s.atTick 0).lookup (objectLockSlot t b₂ k₂) = none := hnone _ rfl
  rw [ensureObjectMutationUnlocked, runE_read_bind, runE_read_bind, hfound, hfree] at hunlocked
  dsimp only at hunlocked
  rw [checkUnlocked, hheld] at hunlocked
  cases hunlocked

/-- The joined names of different objects differ if the names of the buckets have no dash. -/
theorem joined_ne (h₁ : '-' ∉ b₁.toList) (h₂ : '-' ∉ b₂.toList) (hne : (b₁, k₁) ≠ (b₂, k₂)) :
    b₁ ++ "-" ++ k₁ ≠ b₂ ++ "-" ++ k₂ := by
  intro heq
  have hlist : b₁.toList ++ '-' :: k₁.toList = b₂.toList ++ '-' :: k₂.toList := by
    simpa using congrArg String.toList heq
  obtain ⟨hb, hk⟩ := append_cons_inj_of_not_mem h₁ h₂ hlist
  exact hne (by rw [toList_inj.1 hb, toList_inj.1 hk])

end Distribution

namespace Sample

open Hsp.Distribution

/-- Two buckets, of which one has a name with a dash. -/
def dashed : Server :=
  runRequests (deployment [] [] 0)
    [.createBucket (auth "0") tenant "a", .createBucket (auth "1") tenant "a-b"] .empty

/-- A legal hold on an object leaves the object of the same key in another bucket alone. -/
theorem marks_apart_dashless :
    SameMarks (deployment [] [] 0) tenant "b" "k"
      (runRequests (deployment [] [] 0) [.createBucket (auth "0") tenant "a"] .empty)
      ((Request.putObjectLegalHold (auth "1") tenant "a" "k" true).perform (deployment [] [] 0)
        (runRequests (deployment [] [] 0) [.createBucket (auth "0") tenant "a"] .empty)).2 := by
  have hapart : "a" ++ "-" ++ "k" ≠ "b" ++ "-" ++ "k" :=
    joined_ne (by decide) (by decide) (by decide)
  have hb : canonicalBucketName "a" = .ok "a" := by decide +kernel
  have hk : canonicalObjectKeyName "k" = .ok "k" := by decide +kernel
  exact (marks_apart_iff (deployment [] [] 0) tenant "a" "k" "b" "k").1 hapart
    [.createBucket (auth "0") tenant "a"] _ ⟨rfl, hb, hk⟩

/-- **Two objects share their records.**  A legal hold on one of them locks the other, and an
access control list that lets everyone read one of them does so for the other. -/
theorem marks_shared :
    let d := deployment [] [] 0
    let held := ((Request.putObjectLegalHold (auth "2") tenant "a-b" "c" true).perform d dashed).2
    let shown := ((Request.putObjectAcl (auth "2") tenant "a-b" "c" .publicRead).perform d dashed).2
    ((runE (act d) (ensureObjectMutationUnlocked tenant "a" "b-c" false (auth "3"))
        (dashed.atTick 0)).1 = .ok () ∧
      (runE (act d) (ensureObjectMutationUnlocked tenant "a" "b-c" false (auth "3"))
        (held.atTick 0)).1 =
          .error ⟨.conflict, "legal_hold_active", "object is under legal hold"⟩) ∧
    (runE (act d) (getObjectLock (auth "3") tenant "a" "b-c") (held.atTick 0)).1 =
      .ok ⟨tenant, "a-b", "c", none, true, none, 0⟩ ∧
    ((runE (act d) (ensureBucketReadScopeFor scopeless tenant "a" (some "b-c"))
        (dashed.atTick 0)).1 =
          .error ⟨.auth, "acl_denied", "read request is blocked by ACL policy"⟩ ∧
      (runE (act d) (ensureBucketReadScopeFor scopeless tenant "a" (some "b-c"))
        (shown.atTick 0)).1 = .ok ()) := by
  decide +kernel

end Sample

end Hsp
