import Hsp.Distribution.Retention

/-!
# Compliance retention

Compliance retention cannot be taken back: while it is active, an update may only prolong it.  The
requests that change objects do not look at the mode of a lock, and let a caller pass who may
repair.

* `Complying.perform` : requests keep compliance retention while it is active;
* `compliance_binding_stays` : an object under compliance retention stays, if those who may repair
  do not change objects.
-/

namespace Hsp

namespace Distribution

variable {d : Deployment}

/-! ### Updates of compliance retention -/

/-- A lock has compliance retention until a time or longer. -/
def ObjectLockRecord.Complies (lock : ObjectLockRecord) (immutableUntil : UInt64) : Prop :=
  lock.isCompliance ∧ ∃ longer, lock.immutableUntilMs = some longer ∧ immutableUntil ≤ longer

/-- An object has compliance retention until a time or longer. -/
structure Complying (t : TenantId) (bucket key : String) (immutableUntil : UInt64) (s : Server) :
    Prop where
  filed : LocksFiled s
  complies : ∃ lock, s.lookup (objectLockSlot t bucket key) = some lock ∧
    lock.Complies immutableUntil

namespace Complying

variable {t t' : TenantId} {b k : String} {u : UInt64} {s s' : Server}

theorem put (h : Complying t b k u s) {name : String} {v : ObjectLockRecord}
    (hv : ∀ lock, s.lookup ⟨.objectLock, t', name⟩ = some lock → lock.Complies u → v.Complies u)
    (entries : ∀ a, s'.lookup a = (s.put ⟨.objectLock, t', name⟩ v).lookup a) :
    ∃ lock, s'.lookup (objectLockSlot t b k) = some lock ∧ lock.Complies u := by
  obtain ⟨lock, hlock, hcomplies⟩ := h.complies
  rw [entries]
  by_cases heq : objectLockSlot t b k = ⟨.objectLock, t', name⟩
  · obtain ⟨-, rfl, rfl⟩ := Slot.mk.inj heq
    exact ⟨v, Server.lookup_put _ _ _, hv lock hlock hcomplies⟩
  · rw [Server.lookup_put_of_ne heq]
    exact h.complies

/-- **Requests keep compliance retention while it is active.** -/
theorem perform (r : Request) (h : Complying t b k u s)
    (hactive : ∀ n, s.alpha.tick ≤ n → n < (r.perform d s).2.alpha.tick → d.clock n < u.toNat) :
    Complying t b k u (r.perform d s).2 := by
  refine ⟨h.filed.perform r s, ?_⟩
  by_cases hr : .objectLock ∈ r.writes
  · have hstep := markStep_of_writes (d := d) h.filed hr
    cases r with
    | putObjectRetention auth t' bucket key newUntil newMode =>
      rcases putObjectRetention_cases auth bucket key newUntil newMode with
        hsame | ⟨b', k', now, checked, written, -, ⟨hle, hle', hlt⟩, hallowed, entries⟩
      · obtain ⟨lock, hlock, hcomplies⟩ := h.complies
        exact ⟨lock, (hsame _).trans hlock, hcomplies⟩
      · refine h.put (fun lock hlock ⟨hmode, current, hcurrent, hlater⟩ => ?_) entries
        rw [lockAt_of_lookup hlock] at hallowed ⊢
        have hnow : d.clock checked < current.toNat :=
          lt_of_lt_of_le (hactive checked hle (hle'.trans_lt hlt)) (UInt64.le_iff_toNat_le.1 hlater)
        obtain ⟨rfl, longer, rfl, hlonger⟩ :=
          prolongs_of_checkRetentionUpdate (hallowed current hcurrent hnow) (.inr hmode)
        exact ⟨hmode, longer, rfl, UInt64.le_trans hlater hlonger⟩
    | putObjectLegalHold auth t' bucket key legalHold =>
      cases hstep with
      | unchanged entries =>
        rw [entries]
        exact h.complies
      | legalHold now written _ _ _ _ entries =>
        refine h.put (fun lock hlock hcomplies => ?_) entries
        rwa [lockAt_of_lookup hlock]
    | _ => simp [Request.writes] at hr
  · rw [r.lookup_perform s hr]
    exact h.complies

end Complying

/-- Whenever the clock is read during the request, the retention of the object has not ended. -/
def ActiveDuring (d : Deployment) (t : TenantId) (bucket key : String) (r : Request) (s : Server) :
    Prop :=
  ∀ lock immutableUntil, s.lookup (objectLockSlot t bucket key) = some lock →
    lock.immutableUntilMs = some immutableUntil →
      d.clock s.alpha.tick < immutableUntil.toNat ∧
        ∀ n, s.alpha.tick ≤ n → n < (r.perform d s).2.alpha.tick → d.clock n < immutableUntil.toNat

/-- **Compliance retention.**  On a server that has served any requests, a key is bound to an object
that is under compliance retention.  Then a sequence of requests by any callers is served, and the
retention has not ended whenever the clock is read.  If those who may repair do not change objects,
deletes spell the bucket as it is registered, and no upload is answered with an older upload to the
key, then the key stays bound as it was, and the retention is not shortened. -/
theorem compliance_binding_stays (d : Deployment) (history requests : List Request) (t : TenantId)
    (bucket key : String) (bound : NamespaceBindingState) (lock : ObjectLockRecord)
    (immutableUntil : UInt64)
    (hbound : (runRequests d history .empty).alpha.binding t bucket key = some bound)
    (hlive : bound.tombstone = false)
    (hlock : (runRequests d history .empty).lookup (objectLockSlot t bucket key) = some lock)
    (hmode : lock.isCompliance) (huntil : lock.immutableUntilMs = some immutableUntil)
    (h : EachRequest d (fun r s => ActiveDuring d t bucket key r s ∧ r.Unprivileged ∧
      r.Spells bucket ∧ r.Fresh d t bucket key s) requests (runRequests d history .empty)) :
    (runRequests d requests (runRequests d history .empty)).alpha.binding t bucket key =
        some bound ∧
      ∃ lock', (runRequests d requests (runRequests d history .empty)).lookup
        (objectLockSlot t bucket key) = some lock' ∧ lock'.Complies immutableUntil := by
  have hstart : Complying t bucket key immutableUntil (runRequests d history .empty) :=
    ⟨.runRequests history, lock, hlock, hmode, immutableUntil, huntil, UInt64.le_refl _⟩
  refine (h.invariant (I := fun s => Registered s ∧ s.alpha.binding t bucket key = some bound ∧
    Complying t bucket key immutableUntil s) ?_ ⟨.runRequests history, hbound, hstart⟩).2.imp_right
      (·.complies)
  rintro r s ⟨hactive, hprivileged, hspells, hfresh⟩ ⟨hregistered, hb, hcomplying⟩
  obtain ⟨current, hcurrent, hcompliance, longer, hlonger, hle⟩ := hcomplying.complies
  obtain ⟨hnow, hlater⟩ := hactive current longer hcurrent hlonger
  have hduring : LockedDuring d t bucket key r s :=
    ⟨current, hcurrent, .inr ⟨longer, hlonger, hnow⟩, fun n hn hend =>
      .inr ⟨longer, hlonger, hlater n hn hend⟩⟩
  have hafter : Complying t bucket key longer (r.perform d s).2 :=
    .perform r ⟨hcomplying.filed, current, hcurrent, hcompliance, longer, hlonger,
      UInt64.le_refl _⟩ hlater
  refine ⟨hregistered.perform r s, Request.binding_perform hlive hregistered hb hduring
    hprivileged hspells hfresh, hafter.filed, ?_⟩
  obtain ⟨lock', hlock', hcompliance', longer', hlonger', hle'⟩ := hafter.complies
  exact ⟨lock', hlock', hcompliance', longer', hlonger', UInt64.le_trans hle hle'⟩

end Distribution

namespace Sample

open Hsp.Distribution

/-- An object is put and placed under compliance retention. -/
def retained : List Request :=
  [.createBucket (writer "0") tenant "b", .putObject (writer "1") (putRequest "b" "k" "i") chunk,
    .putObjectRetention (writer "2") tenant "b" "k" (some 9) (some "COMPLIANCE")]

def retainedServer : Server := runRequests (deployment heldRecords [] 0) retained .empty

/-- The key of the object, deleted by a caller. -/
def deleteRetained (caller : AuthContext) : Request := .deleteObject caller ⟨tenant, "b", "k", "d"⟩

theorem activeDuring_of_pos {records : List NamespaceMutationRecord} {t : TenantId}
    {bucket key : String} {r : Request} {s : Server}
    (h : (s.lookup (objectLockSlot t bucket key)).all fun lock =>
      lock.immutableUntilMs.all fun immutableUntil => decide (0 < immutableUntil.toNat)) :
    ActiveDuring (deployment records [] 0) t bucket key r s := by
  intro lock immutableUntil hlock huntil
  rw [hlock, Option.all_some, huntil, Option.all_some, decide_eq_true_iff] at h
  exact ⟨h, fun _ _ _ => h⟩

/-- A caller who may repair tries to end the retention. -/
def endRetention : Request := .putObjectRetention (auth "4") tenant "b" "k" none none

theorem retained_run :
    (retainedServer.alpha.binding tenant "b" "k").map (·.tombstone) = some false ∧
      (retainedServer.lookup (objectLockSlot tenant "b" "k")).any (fun lock =>
        lock.isCompliance ∧ lock.immutableUntilMs = some 9) = true ∧
      ((endRetention.perform (deployment heldRecords [] 0) retainedServer).2.lookup
        (objectLockSlot tenant "b" "k")).all (fun lock =>
          lock.immutableUntilMs.all fun immutableUntil => decide (0 < immutableUntil.toNat)) =
            true ∧
      endRetention.Fresh (deployment heldRecords [] 0) tenant "b" "k" retainedServer ∧
      (deleteRetained (writer "3")).Fresh (deployment heldRecords [] 0) tenant "b" "k"
        (endRetention.perform (deployment heldRecords [] 0) retainedServer).2 ∧
      (((deleteRetained (auth "3")).perform (deployment heldRecords [] 0)
        retainedServer).2.alpha.binding tenant "b" "k").map (·.tombstone) = some true := by
  decide +kernel

theorem retained_locked : ∃ lock,
    retainedServer.lookup (objectLockSlot tenant "b" "k") = some lock ∧ lock.isCompliance ∧
      lock.immutableUntilMs = some 9 := by
  obtain ⟨lock, hlookup, hcompliance⟩ := (Option.any_eq_true _ _).1 retained_run.2.1
  exact ⟨lock, hlookup, of_decide_eq_true hcompliance⟩

theorem retained_active (r : Request) :
    ActiveDuring (deployment heldRecords [] 0) tenant "b" "k" r retainedServer := by
  obtain ⟨lock, hlookup, -, huntil⟩ := retained_locked
  refine activeDuring_of_pos ?_
  rw [hlookup, Option.all_some, huntil]
  rfl

/-- Neither a caller who may repair can end the retention, nor another one delete the object. -/
theorem retained_stays : ∃ bound, retainedServer.alpha.binding tenant "b" "k" = some bound ∧
    (runRequests (deployment heldRecords [] 0) [endRetention, deleteRetained (writer "3")]
      retainedServer).alpha.binding tenant "b" "k" = some bound := by
  obtain ⟨hlive, -, hactive, hfresh, hfresh', -⟩ := retained_run
  obtain ⟨bound, hbound, hlive⟩ := exists_live hlive
  obtain ⟨lock, hlock, hmode, huntil⟩ := retained_locked
  refine ⟨bound, hbound, (compliance_binding_stays _ retained _ tenant "b" "k" bound lock 9 hbound
    hlive hlock hmode huntil ?_).1⟩
  exact ⟨⟨retained_active _, nofun, trivial, hfresh⟩,
    ⟨activeDuring_of_pos hactive, fun _ => by decide, fun _ => rfl, hfresh'⟩, trivial⟩

/-- A caller who may repair deletes the object under compliance retention. -/
theorem retained_deleted :
    (∃ lock, retainedServer.lookup (objectLockSlot tenant "b" "k") = some lock ∧
      lock.isCompliance ∧ lock.immutableUntilMs = some 9) ∧
      ActiveDuring (deployment heldRecords [] 0) tenant "b" "k" (deleteRetained (auth "3"))
        retainedServer ∧
      (retainedServer.alpha.binding tenant "b" "k").map (·.tombstone) = some false ∧
      (((deleteRetained (auth "3")).perform (deployment heldRecords [] 0)
        retainedServer).2.alpha.binding tenant "b" "k").map (·.tombstone) = some true := by
  obtain ⟨hlive, -, -, -, -, hdeleted⟩ := retained_run
  exact ⟨retained_locked, retained_active _, hlive, hdeleted⟩

end Sample

end Hsp
