import Hsp.Distribution.Deletes
import Hsp.Sample.Deployment

/-!
# What a successful delete or copy has done

`deleteObject` ends in an `UNBIND`, and `copyObject` in a `BIND`.  Either may be answered from the
store, with the response to an earlier call that was made with the same token, for the same key
and under the same idempotency key.  Then nothing happens to the key.

* `deleteObject_iff` : exactly when the key is a tombstone after a delete that succeeds;
* `copyObject_iff` : exactly when the destination is bound to the copied object.
-/

namespace Hsp

namespace Distribution

variable {d : Deployment} {auth : AuthContext} {s s' : Server} {request : DeleteObjectRequest}
  {response : DeleteObjectResponse}

/-- A path resolves to a tombstone. -/
def Tombstoned (w : World) (t : TenantId) (ns path : String) : Prop :=
  ∃ b, w.binding t ns path = some b ∧ b.tombstone = true

/-- A path is bound to an object. -/
def BoundAt (w : World) (t : TenantId) (ns path cid : String) : Prop :=
  ∃ b, w.binding t ns path = some b ∧ b.tombstone = false ∧ b.targetCid = some cid

theorem boundAt_iff_of_same {w w' : World} (h : SameNamespaces w w') {t : TenantId}
    {ns path cid : String} : BoundAt w' t ns path cid ↔ BoundAt w t ns path cid := by
  rw [BoundAt, h.binding, BoundAt]

/-! ### Deleting -/

/-- **What a delete that succeeds has done.** -/
theorem deleteObject_iff (h : runE (act d) (deleteObject d auth request) s = (.ok response, s')) :
    ∃ ns key, s.place request.tenantId request.bucket request.key = some (ns, key) ∧
      (Tombstoned s'.alpha request.tenantId ns key ↔ ¬ request.Retried d s auth ns key) := by
  obtain ⟨x, hx, hiff⟩ : ∃ x, request.Finds s x ∧
      (request.Deletable d s s.alpha auth x ↔ ¬ request.Retried d s auth x.ns x.path) := by
    rw [deleteObject_eq] at h
    obtain ⟨r, s₁, hchecks, h⟩ := runE_bind_eq_ok _ h
    obtain ⟨x, record, hx, hpasses, hfields, rfl, rfl⟩ := deleteChecks_eq_ok.1 hchecks
    obtain ⟨unbound, s₂, hunbind⟩ := runE_map_eq_ok _ (congrArg Prod.fst h)
    refine ⟨x, hx, (unbinds_iff hx hpasses hfields).symm.trans (and_iff_right ?_)⟩
    exact congrArg (·.1.isOk) (callAlpha_ok hunbind).1
  refine ⟨x.ns, x.path, hx.place_eq, ?_⟩
  obtain rfl : ((Request.deleteObject auth request).perform d s).2 = s' := congrArg Prod.snd h
  rw [← hiff]
  rcases delete_outcome d s auth request with ⟨hsame, hnone⟩ |
    ⟨y, m, hy, hdeletable, ht, hns, hpath, hkind, hmut⟩
  · simp [Tombstoned, hsame.binding, hx.binding, hx.live, hnone x hx]
  · cases hx.unique hy
    rw [Tombstoned, hmut.binding, mutate_binding, ht, hns, hpath, if_pos ⟨rfl, rfl, rfl⟩,
      Mutation.effect, hkind]
    exact iff_of_true ⟨_, rfl, rfl⟩ hdeletable

/-! ### Copying -/

/-- Whether the `BIND` of a copy would be answered from the store. -/
def CopyObjectRequest.Retried (d : Deployment) (s : Server) (auth : AuthContext)
    (request : CopyObjectRequest) (ns key : String) : Prop :=
  Hsp.Retried d.toEnv s.alpha auth
    (bindMeta request.tenantId ns key request.idempotencyKey) .bind request.idempotencyKey

theorem boundAt_iff_of_bind {w w' : World} {request : BindRequest}
    {signed : NamespaceMutationRecord} {response : BindResponse} {cid : String}
    (hsigned : request.signedRecordB64 = Base64.encode (d.namespaceToken signed))
    (htenant : signed.tenantId = request.tenantId) (hkind : signed.kind = .bind)
    (htarget : signed.targetCid = some cid)
    (h : runE (exec d.toEnv) (bind d.toEnv auth request) w = (.ok response, w')) :
    BoundAt w' request.tenantId signed.ns signed.path cid ↔
      ¬ Retried d.toEnv w auth
          (bindMeta request.tenantId signed.ns signed.path request.idempotencyKey)
          .bind request.idempotencyKey ∨
        BoundAt w request.tenantId signed.ns signed.path cid := by
  rcases (bind_signed_ok hsigned h).2 with ⟨hretried, hsame⟩ | ⟨hfresh, m, rfl, -, hmut⟩
  · simp [boundAt_iff_of_same hsame, hretried]
  · refine iff_of_true ?_ (.inl hfresh)
    rw [BoundAt, hmut.binding, mutate_binding, if_pos ⟨htenant.symm, rfl, rfl⟩,
      Mutation.effect, hkind]
    exact ⟨_, rfl, rfl, htarget⟩

/-- **What a copy that succeeds has done.** -/
theorem copyObject_iff {request : CopyObjectRequest} {response : CopyObjectResponse}
    (h : runE (act d) (copyObject d auth request) s = (.ok response, s')) :
    ∃ ns key ns' key',
      s.place request.tenantId request.sourceBucket request.sourceKey = some (ns, key) ∧
      s.place request.tenantId request.destinationBucket request.destinationKey =
        some (ns', key') ∧
      BoundAt s.alpha request.tenantId ns key response.objectCid ∧
      (BoundAt s'.alpha request.tenantId ns' key' response.objectCid ↔
        ¬ request.Retried d s auth ns' key' ∨
          BoundAt s.alpha request.tenantId ns' key' response.objectCid) := by
  obtain ⟨source, _, hrun, h⟩ := runE_bind_eq_ok _ h
  obtain ⟨rfl, name, hname, hrecord⟩ := requireBucket_ok hrun
  obtain ⟨destination, _, hrun, h⟩ := runE_bind_eq_ok _ h
  obtain ⟨rfl, name', hname', hrecord'⟩ := requireBucket_ok hrun
  obtain ⟨key, hkey, h⟩ := ofExcept_bind_ok h
  obtain ⟨key', hkey', h⟩ := ofExcept_bind_ok h
  obtain ⟨_, s₁, hread, h⟩ := runE_bind_eq_ok _ h
  have hlook₁ := (Within.ensureBucketReadScopeFor (K := []) (C := Call.ResolvesNow) auth
    request.tenantId source.bucket (some key)).untouched_runE (d := d) s
  rw [hread] at hlook₁
  obtain ⟨_, -, h⟩ := ofExcept_bind_ok h
  obtain ⟨resolved, s₂, hresolve, h⟩ := runE_bind_eq_ok _ h
  obtain ⟨hlook₂, ns, path, hcanon, hbinding⟩ := resolveKey_ok (orObjectError_ok hresolve)
  obtain ⟨_, _, hrun, h⟩ := runE_bind_eq_ok _ h
  obtain ⟨hlive, rfl⟩ := rejectIf_ok hrun
  obtain ⟨existing, s₃, hexisting, h⟩ := runE_bind_eq_ok _ h
  have hlook₃ := (Within.existingObject (K := []) (C := Call.ResolvesNow) auth request.tenantId
    (fun _ h => h) destination.ns key').untouched_runE (d := d) s₂
  rw [hexisting] at hlook₃
  obtain ⟨_, s₄, hlock, h⟩ := runE_bind_eq_ok _ h
  have hlook₄ := (Within.ensureObjectMutationUnlocked (K := []) (C := Call.ResolvesNow) auth
    request.tenantId destination.bucket key' false).untouched_runE (d := d) s₃
  rw [hlock] at hlook₄
  obtain ⟨targetCid, _, hrun, h⟩ := runE_bind_eq_ok _ h
  obtain ⟨htarget, rfl⟩ := orNotFound_ok hrun
  obtain ⟨issuedAtMs, s₅, hnow, h⟩ := runE_bind_eq_ok _ h
  obtain ⟨token, _, hsign, h⟩ := runE_bind_eq_ok _ h
  obtain ⟨rfl, record, hfields, rfl⟩ := signNamespaceRecord_ok hsign
  obtain ⟨bound, s₆, hbind, h⟩ := runE_bind_eq_ok _ h
  cases h
  have hbefore : Untouched s.alpha s₅.alpha := by
    cases hnow
    exact hlook₁.trans (hlook₂.trans (hlook₃.trans (hlook₄.trans (.ticked _ 1))))
  obtain ⟨hrun, -⟩ := callAlpha_ok hbind
  have hplace := (bind_signed_ok rfl hrun).1
  have htenant : record.tenantId = request.tenantId :=
    congrArg NamespaceMutationFields.tenantId hfields
  have hkind : record.kind = .bind := congrArg NamespaceMutationFields.kind hfields
  have hcid : record.targetCid = some targetCid :=
    congrArg NamespaceMutationFields.targetCid hfields
  obtain ⟨b, hb, hbcid, -, -, htomb⟩ := binding_of_resolveBinding hbinding
  refine ⟨ns, path, record.ns, record.path, place_eq hname hrecord hkey hcanon,
    place_eq hname' hrecord' hkey' hplace, ⟨b, ?_, ?_, ?_⟩, ?_⟩
  · rw [← hlook₁.sameOn.sameNamespaces.binding]
    exact hb
  · rw [← htomb]
    exact Bool.eq_false_iff.2 hlive
  · rw [← hbcid]
    exact htarget
  · rw [CopyObjectRequest.Retried, ← hbefore.retried_iff,
      ← boundAt_iff_of_same hbefore.sameOn.sameNamespaces]
    exact boundAt_iff_of_bind rfl htenant hkind hcid hrun

/-- **Success of a delete or a copy.**  In any state, so after any sequence of requests: if a
delete succeeds, the key is a tombstone afterwards if and only if the `UNBIND` was no retry; if a
copy succeeds, the object in the response is the one the source was bound to, and the destination
is bound to it afterwards if and only if the `BIND` was no retry or the destination was bound to it
before. -/
theorem delete_and_copy_iff (d : Deployment) (s : Server) (auth : AuthContext) :
    (∀ request response, ((Request.deleteObject auth request).perform d s).1 = .ok response →
      ∃ ns key, s.place request.tenantId request.bucket request.key = some (ns, key) ∧
        (Tombstoned ((Request.deleteObject auth request).perform d s).2.alpha
            request.tenantId ns key ↔
          ¬ request.Retried d s auth ns key)) ∧
    ∀ request response, ((Request.copyObject auth request).perform d s).1 = .ok response →
      ∃ ns key ns' key',
        s.place request.tenantId request.sourceBucket request.sourceKey = some (ns, key) ∧
        s.place request.tenantId request.destinationBucket request.destinationKey =
          some (ns', key') ∧
        BoundAt s.alpha request.tenantId ns key response.objectCid ∧
        (BoundAt ((Request.copyObject auth request).perform d s).2.alpha
            request.tenantId ns' key' response.objectCid ↔
          ¬ request.Retried d s auth ns' key' ∨
            BoundAt s.alpha request.tenantId ns' key' response.objectCid) :=
  ⟨fun _ _ h => deleteObject_iff (Prod.ext h rfl), fun _ _ h => copyObject_iff (Prod.ext h rfl)⟩

end Distribution

namespace Sample

open Hsp.Distribution

/-- The records of a run in which a key is bound, deleted, bound and deleted again, or copied. -/
def deletedRecords : List NamespaceMutationRecord :=
  [⟨keyRecord "k" .bind (some objectCid) none, fits_bind⟩,
    ⟨keyRecord "k" .unbind none (some 1), fits_unbind⟩,
    ⟨keyRecord "k" .unbind none (some 3), by decide +kernel⟩,
    ⟨keyRecord "c" .bind (some objectCid) none, by decide +kernel⟩]

/-- The key is bound. -/
def putOnce : Server :=
  runRequests (deployment deletedRecords [] 0)
    [.createBucket (auth "0") tenant "b", .putObject (auth "1") (putRequest "b" "k" "i") chunk]
    .empty

/-- The first delete leaves a tombstone, and a copy to another key binds the key. -/
theorem deleted_and_copied :
    Tombstoned ((Request.deleteObject (auth "2") ⟨tenant, "b", "k", "d"⟩).perform
        (deployment deletedRecords [] 0) putOnce).2.alpha tenant "b" "k" ∧
      ∃ cid, BoundAt putOnce.alpha tenant "b" "k" cid ∧
        BoundAt ((Request.copyObject (auth "2") ⟨tenant, "b", "k", "b", "c", "d"⟩).perform
          (deployment deletedRecords [] 0) putOnce).2.alpha tenant "b" "c" cid := by
  have hrun : ((Request.deleteObject (auth "2") ⟨tenant, "b", "k", "d"⟩).perform
        (deployment deletedRecords [] 0) putOnce).1.isOk ∧
      ((Request.copyObject (auth "2") ⟨tenant, "b", "k", "b", "c", "d"⟩).perform
        (deployment deletedRecords [] 0) putOnce).1.isOk ∧
      putOnce.place tenant "b" "k" = some ("b", "k") ∧
      putOnce.place tenant "b" "c" = some ("b", "c") ∧
      putOnce.alpha.store (.idempotency tenant .unbind "d") = none ∧
      putOnce.alpha.store (.idempotency tenant .bind "d") = none := by
    decide +kernel
  obtain ⟨hdelete, hcopy, hplace, hplace', hunbind, hbind⟩ := hrun
  obtain ⟨hdeleted, hcopied⟩ := delete_and_copy_iff (deployment deletedRecords [] 0) putOnce
    (auth "2")
  obtain ⟨_, hdelete⟩ := exists_ok hdelete
  obtain ⟨response, hcopy⟩ := exists_ok hcopy
  obtain ⟨_, _, hat, htombstone⟩ := hdeleted _ _ hdelete
  obtain ⟨_, _, _, _, hfrom, hto, hsource, hbound⟩ := hcopied _ _ hcopy
  cases hplace.symm.trans hat
  cases hplace.symm.trans hfrom
  cases hplace'.symm.trans hto
  refine ⟨htombstone.2 fun h => ?_, response.objectCid, hsource, hbound.2 (.inl fun h => ?_)⟩
  · exact absurd h.1 (by simp [unbindMeta, hunbind])
  · exact absurd h.1 (by simp [bindMeta, hbind])

/-- The key is deleted, always with the same token and the same idempotency key. -/
def deleteKey : Request := .deleteObject (auth "2") ⟨tenant, "b", "k", "d"⟩

/-- The key is bound, deleted, and bound again. -/
def recreated : Server :=
  runRequests (deployment deletedRecords [] 0)
    [.createBucket (auth "0") tenant "b", .putObject (auth "1") (putRequest "b" "k" "i") chunk,
      deleteKey, .putObject (auth "3") (putRequest "b" "k" "j") chunk] .empty

/-- The second delete succeeds, and the key is still bound. -/
theorem deleted_and_still_bound :
    (deleteKey.perform (deployment deletedRecords [] 0) recreated).1.isOk ∧
      recreated.place tenant "b" "k" = some ("b", "k") ∧
      ¬ Tombstoned (deleteKey.perform (deployment deletedRecords [] 0) recreated).2.alpha tenant
        "b" "k" := by
  have hrun : (deleteKey.perform (deployment deletedRecords [] 0) recreated).1.isOk ∧
      recreated.place tenant "b" "k" = some ("b", "k") ∧
      ((deleteKey.perform (deployment deletedRecords [] 0) recreated).2.alpha.binding tenant
        "b" "k").all (·.tombstone = false) := by
    decide +kernel
  obtain ⟨hok, hplace, hlive⟩ := hrun
  refine ⟨hok, hplace, fun ⟨b, hb, htomb⟩ => ?_⟩
  rw [hb] at hlive
  simp [htomb] at hlive

end Sample

end Hsp
