import Hsp.Distribution.Marks

/-!
# Retention and legal hold over time

Retention and legal hold are two parts of one record.  A request that sets one of them reads the
record, changes its part and writes the record back.

* `RetentionLaw` : what a request may do to the lock of an object, and when;
* `retention_monotone` : every request of every sequence keeps to it, if the clock never goes back.
-/

namespace Hsp.Distribution

variable {d : Deployment} {lock : ObjectLockRecord} {auth : AuthContext}

/-- The request sets the retention of an object. -/
def Request.setsRetention : Request → Bool
  | .putObjectRetention .. => true
  | _ => false

/-- The request sets the legal hold of an object. -/
def Request.setsLegalHold : Request → Bool
  | .putObjectLegalHold .. => true
  | _ => false

/-- What a request may do to the lock of an object, on a server before and after it.  The time at
which the record is written stands in the record. -/
structure RetentionLaw (d : Deployment) (s s' : Server) (r : Request)
    (before after : Option ObjectLockRecord) : Prop where
  /-- This is the time that the clock showed during the request. -/
  stamped : after = before ∨ ∃ lock n, after = some lock ∧
    s.alpha.tick ≤ n ∧ n < s'.alpha.tick ∧ lock.updatedAtMs = d.clock n
  /-- Retention that has not ended when the record is written is not shortened, and its mode stays,
  unless the caller may repair and the mode is not compliance. -/
  retained : ∀ lock immutableUntil, before = some lock →
    lock.immutableUntilMs = some immutableUntil →
    .adminRepair ∉ r.auth.claims.ops ∨ lock.isCompliance →
    ∃ lock', after = some lock' ∧ (lock'.updatedAtMs < immutableUntil.toNat →
      lock'.mode = lock.mode ∧
        ∃ longer, lock'.immutableUntilMs = some longer ∧ immutableUntil ≤ longer)
  /-- A legal hold is only taken off by a caller who may repair. -/
  held : ∀ lock, before = some lock → lock.legalHold → .adminRepair ∉ r.auth.claims.ops →
    ∃ lock', after = some lock' ∧ lock'.legalHold
  retentionOnly : r.setsRetention → after.any (·.legalHold) = before.any (·.legalHold)
  legalHoldOnly : r.setsLegalHold →
    after.bind (·.immutableUntilMs) = before.bind (·.immutableUntilMs) ∧
      after.bind (·.mode) = before.bind (·.mode)

theorem RetentionLaw.of_same (s s' : Server) (r : Request) (lock : Option ObjectLockRecord) :
    RetentionLaw d s s' r lock lock where
  stamped := .inl rfl
  retained lock' immutableUntil hlock huntil _ :=
    ⟨lock', hlock, fun _ => ⟨rfl, immutableUntil, huntil, UInt64.le_refl _⟩⟩
  held lock' hlock hheld _ := ⟨lock', hlock, hheld⟩
  retentionOnly _ := rfl
  legalHoldOnly _ := ⟨rfl, rfl⟩

/-- An update of retention that is active is allowed to prolong it, and for those who may repair, to
do anything to retention that is not compliance retention. -/
theorem prolongs_of_checkRetentionUpdate {current : UInt64} {newUntil : Option UInt64}
    {newMode : Option String}
    (hcheck : checkRetentionUpdate lock current newUntil newMode auth = .ok ())
    (hplain : .adminRepair ∉ auth.claims.ops ∨ lock.isCompliance) :
    newMode = lock.mode ∧ ∃ longer, newUntil = some longer ∧ current ≤ longer := by
  unfold checkRetentionUpdate at hcheck
  dsimp only at hcheck
  split at hcheck
  · rename_i hlonger
    obtain ⟨hlonger, hmode⟩ := hlonger
    cases newUntil with
    | none => cases hlonger
    | some longer =>
      have hnot : ¬ longer < current := by simpa using hlonger
      exact ⟨hmode.symm, longer, rfl, UInt64.not_lt.1 hnot⟩
  · split at hcheck
    · cases hcheck
    · rename_i hmode
      rcases hplain with hplain | hcompliance
      · rw [requireAdminRepair, if_neg hplain] at hcheck
        cases hcheck
      · exact absurd hcompliance hmode

section Step

variable {s s' : Server} {t t' : TenantId} {b k b' k' : String} {now checked written : ℕ}

theorem lockAt_of_lookup (hlock : s.lookup (objectLockSlot t b k) = some lock) :
    s.lockAt t b k now = lock := by
  rw [Server.lockAt, hlock]
  rfl

theorem any_legalHold_lockAt :
    (s.lookup (objectLockSlot t b k)).any (·.legalHold) = (s.lockAt t b k now).legalHold := by
  unfold Server.lockAt
  cases s.lookup (objectLockSlot t b k) <;> rfl

theorem bind_lockAt :
    (s.lookup (objectLockSlot t b k)).bind (·.immutableUntilMs) =
        (s.lockAt t b k now).immutableUntilMs ∧
      (s.lookup (objectLockSlot t b k)).bind (·.mode) = (s.lockAt t b k now).mode := by
  unfold Server.lockAt
  cases s.lookup (objectLockSlot t b k) <;> exact ⟨rfl, rfl⟩

theorem RetentionLaw.retention (hclock : Monotone d.clock) (hle : checked ≤ written)
    (hread : s.alpha.tick ≤ written ∧ written < s'.alpha.tick) {bucket key : String}
    {newUntil : Option UInt64} {newMode : Option String}
    (allowed : ∀ current, (s.lockAt t b k now).immutableUntilMs = some current →
      d.clock checked < current.toNat →
      checkRetentionUpdate (s.lockAt t b k now) current newUntil newMode auth = .ok ()) :
    RetentionLaw d s s' (.putObjectRetention auth t' bucket key newUntil newMode)
      (s.lookup (objectLockSlot t b k))
      (some { s.lockAt t b k now with
        immutableUntilMs := newUntil, mode := newMode, updatedAtMs := d.clock written }) where
  stamped := .inr ⟨_, written, rfl, hread.1, hread.2, rfl⟩
  retained lock immutableUntil hlock huntil hplain := by
    rw [lockAt_of_lookup hlock] at allowed ⊢
    refine ⟨_, rfl, fun hactive => ?_⟩
    have hearlier : d.clock checked < immutableUntil.toNat :=
      lt_of_le_of_lt (hclock hle) hactive
    exact prolongs_of_checkRetentionUpdate (allowed immutableUntil huntil hearlier) hplain
  held lock hlock hheld _ := by
    rw [lockAt_of_lookup hlock]
    exact ⟨_, rfl, hheld⟩
  retentionOnly _ := any_legalHold_lockAt.symm
  legalHoldOnly h := by cases h

theorem RetentionLaw.legalHold {bucket key : String} {legalHold : Bool}
    (hread : s.alpha.tick ≤ written ∧ written < s'.alpha.tick)
    (allowed : (s.lockAt t b k now).legalHold → legalHold = false →
      .adminRepair ∈ auth.claims.ops) :
    RetentionLaw d s s' (.putObjectLegalHold auth t' bucket key legalHold)
      (s.lookup (objectLockSlot t b k))
      (some { s.lockAt t b k now with legalHold, updatedAtMs := d.clock written }) where
  stamped := .inr ⟨_, written, rfl, hread.1, hread.2, rfl⟩
  retained lock immutableUntil hlock huntil _ := by
    rw [lockAt_of_lookup hlock]
    exact ⟨_, rfl, fun _ => ⟨rfl, immutableUntil, huntil, UInt64.le_refl _⟩⟩
  held lock hlock hheld hplain := by
    rw [lockAt_of_lookup hlock] at allowed ⊢
    refine ⟨_, rfl, ?_⟩
    cases legalHold with
    | true => rfl
    | false => exact absurd (allowed hheld rfl) hplain
  retentionOnly h := by cases h
  legalHoldOnly _ := ⟨bind_lockAt.1.symm, bind_lockAt.2.symm⟩

/-- A lock that is written where it was read, or a lock elsewhere. -/
theorem RetentionLaw.of_put {r : Request}
    (h : RetentionLaw d s s' r (s.lookup (objectLockSlot t b k)) (some lock)) (t' : TenantId)
    (name : String) :
    RetentionLaw d s s' r (s.lookup ⟨.objectLock, t', name⟩)
      ((s.put (objectLockSlot t b k) lock).lookup ⟨.objectLock, t', name⟩) := by
  by_cases hslot : (⟨.objectLock, t', name⟩ : Slot) = objectLockSlot t b k
  · obtain ⟨-, rfl, rfl⟩ := Slot.mk.inj hslot
    rw [Server.lookup_put]
    exact h
  · rw [Server.lookup_put_of_ne hslot]
    exact .of_same ..

theorem MarkStep.retentionLaw (hclock : Monotone d.clock) {r : Request} (h : MarkStep d s r s')
    (t : TenantId) (name : String) :
    RetentionLaw d s s' r (s.lookup ⟨.objectLock, t, name⟩)
      (s'.lookup ⟨.objectLock, t, name⟩) := by
  cases h with
  | unchanged entries =>
    rw [entries]
    exact .of_same ..
  | retention now checked written hbucket hkey hle hread allowed entries =>
    rw [entries]
    exact (RetentionLaw.retention hclock hle hread allowed).of_put t name
  | legalHold now written hbucket hkey hread allowed entries =>
    rw [entries]
    exact (RetentionLaw.legalHold hread allowed).of_put t name
  | acl written hbucket hkey entries =>
    rw [entries, Server.lookup_put_of_ne (by simp)]
    exact .of_same ..

end Step

/-- **A request keeps to the law.** -/
theorem RetentionLaw.perform (hclock : Monotone d.clock) {s : Server} (hs : LocksFiled s)
    (r : Request) (t : TenantId) (name : String) :
    RetentionLaw d s (r.perform d s).2 r (s.lookup ⟨.objectLock, t, name⟩)
      ((r.perform d s).2.lookup ⟨.objectLock, t, name⟩) := by
  by_cases hr : .objectLock ∈ r.writes
  · exact (markStep_of_writes hs hr).retentionLaw hclock t name
  · rw [r.lookup_perform s hr]
    exact .of_same ..

theorem RetentionLaw.each (hclock : Monotone d.clock) (t : TenantId) (name : String)
    (requests : List Request) {s : Server} (hs : LocksFiled s) :
    EachRequest d (fun r s => RetentionLaw d s (r.perform d s).2 r
      (s.lookup ⟨.objectLock, t, name⟩) ((r.perform d s).2.lookup ⟨.objectLock, t, name⟩))
      requests s := by
  induction requests generalizing s with
  | nil => trivial
  | cons r requests ih => exact ⟨.perform hclock hs r t name, ih (hs.perform r s)⟩

/-- **Retention is monotone.**  In every sequence of requests, by any callers, while the clock does
not go back, each request keeps to the law for the lock of every object. -/
theorem retention_monotone (d : Deployment) (hclock : Monotone d.clock) (requests : List Request)
    (t : TenantId) (b k : String) :
    EachRequest d (fun r s => RetentionLaw d s (r.perform d s).2 r
      (s.lookup (objectLockSlot t b k)) ((r.perform d s).2.lookup (objectLockSlot t b k)))
      requests .empty :=
  RetentionLaw.each hclock t (objectLockStoreKey b k) requests (LocksFiled.runRequests (d := d) [])

end Hsp.Distribution

namespace Hsp.Sample

open Hsp.Distribution

/-- The law is in force for a request that would shorten retention, which changes nothing. -/
theorem retention_kept :
    let requests : List Request := [.createBucket (auth "0") tenant "b",
      .putObjectRetention (writer "1") tenant "b" "k" (some 9) (some "governance"),
      .putObjectRetention (writer "2") tenant "b" "k" (some 8) (some "governance")]
    (runRequests (deployment [] [] 0) requests .empty).lookup (objectLockSlot tenant "b" "k") =
        some ⟨tenant, "b", "k", some 9, false, some "governance", 0⟩ ∧
      EachRequest (deployment [] [] 0) (fun r s =>
        RetentionLaw (deployment [] [] 0) s (r.perform (deployment [] [] 0) s).2 r
          (s.lookup (objectLockSlot tenant "b" "k"))
          ((r.perform (deployment [] [] 0) s).2.lookup (objectLockSlot tenant "b" "k")))
        requests .empty := by
  refine ⟨by decide +kernel, ?_⟩
  exact retention_monotone (deployment [] [] 0) monotone_const _ tenant "b" "k"

end Hsp.Sample
