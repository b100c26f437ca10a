import Hsp.Distribution.Effects
import Hsp.Sample.Deployment

/-!
# Buckets that are created again

`delete_bucket` removes the record of a bucket and its metadata.  Access control lists, lifecycle
and website configurations, locks and replication records are kept elsewhere under the name of the
bucket, and stay.

* `FreshlyAnswered` : a bucket is answered for like one whose name was never used;
* `freshlyAnswered_of_unmarked`, `unmarked_of_freshlyAnswered` : it is if nothing is left under its
  name, or only what a new bucket would be answered with;
* `recreated_fresh` : a bucket that is created again finds what was there before it was deleted.
-/

namespace Hsp.Distribution

variable {d : Deployment} {t : TenantId} {name : String} {s : Server} {record : BucketRecord}

/-! ### Buckets without a past -/

/-- Who may read a bucket without access control lists. -/
def claimsReadScope (auth : AuthContext) (tenantId : TenantId) (bucket : String)
    (key : Option String) : Except ApiError Unit := do
  ensureTenantMatches auth tenantId
  if hasReadCapability auth then ensureBucketScopeMatches auth (some bucket) key
  else throw ⟨.auth, "acl_denied", "read request is blocked by ACL policy"⟩

/-- The answers about a bucket that say that nothing was ever configured for it, and the decisions
about its objects that follow from the claims of the caller alone. -/
structure FreshlyAnswered (d : Deployment) (t : TenantId) (name : String) (s : Server) : Prop where
  reads : ∀ auth key, (∀ k ∈ key, ∃ raw, canonicalObjectKeyName raw = .ok k) →
    (Prog.runE (act d) (ensureBucketReadScopeFor auth t name key) s).1 =
      claimsReadScope auth t name key
  unlocked : ∀ auth key deleteOp, (∃ raw, canonicalObjectKeyName raw = .ok key) →
    (Prog.runE (act d) (ensureObjectMutationUnlocked t name key deleteOp auth) s).1 = .ok ()
  bucketAcl : ∀ auth bucket, canonicalBucketName bucket = .ok name →
    (Prog.runE (act d) (getBucketAcl auth t bucket) s).1 = (do
      claimsReadScope auth t name none
      let _ ← (Prog.runE (act d) (requireBucket t name) s).1
      return ⟨t, name, .private, d.clock s.alpha.tick⟩)
  objectAcl : ∀ auth bucket raw key, canonicalBucketName bucket = .ok name →
    canonicalObjectKeyName raw = .ok key →
    (Prog.runE (act d) (getObjectAcl auth t bucket raw) s).1 = (do
      claimsReadScope auth t name (some key)
      let _ ← (Prog.runE (act d) (requireBucket t name) s).1
      return ⟨t, name, key, .private, d.clock s.alpha.tick⟩)
  lifecycle : ∀ auth bucket, canonicalBucketName bucket = .ok name →
    (Prog.runE (act d) (getLifecycleConfig auth t bucket) s).1 = (do
      claimsReadScope auth t name none
      let _ ← (Prog.runE (act d) (requireBucket t name) s).1
      throw ⟨.notFound, "lifecycle_not_found", "bucket lifecycle configuration not found"⟩)
  objectLock : ∀ auth bucket raw key, canonicalBucketName bucket = .ok name →
    canonicalObjectKeyName raw = .ok key →
    (Prog.runE (act d) (getObjectLock auth t bucket raw) s).1 = (do
      claimsReadScope auth t name (some key)
      return ⟨t, name, key, none, false, none, d.clock s.alpha.tick⟩)
  website : ∀ auth bucket, canonicalBucketName bucket = .ok name →
    (Prog.runE (act d) (getWebsiteConfig auth t bucket) s).1 = (do
      claimsReadScope auth t name none
      throw ⟨.notFound, "website_config_not_found", "website configuration not found"⟩)
  replicationConfig : ∀ auth bucket, canonicalBucketName bucket = .ok name →
    (Prog.runE (act d) (getReplicationConfig auth t bucket) s).1 = (do
      claimsReadScope auth t name none
      throw ⟨.notFound, "replication_not_found", "replication configuration not found"⟩)
  replicationStatus : ∀ auth bucket, canonicalBucketName bucket = .ok name →
    (Prog.runE (act d) (getReplicationStatus auth t bucket) s).1 = (do
      claimsReadScope auth t name none
      return ⟨t, name, "", 0, 0, 0, some "replication_not_started"⟩)

/-- Nothing is left under the name of a bucket, or only what a new bucket would be answered with at
the given time. -/
structure Unmarked (t : TenantId) (name : String) (now : ℕ) (s : Server) : Prop where
  bucketAcl : ∀ r ∈ s.lookup (bucketAclSlot t name), r = ⟨t, name, .private, now⟩
  objectAcl : ∀ raw key, canonicalObjectKeyName raw = .ok key →
    ∀ r ∈ s.lookup (objectAclSlot t name key), r = ⟨t, name, key, .private, now⟩
  lifecycle : s.lookup (lifecycleSlot t name) = none
  objectLock : ∀ raw key, canonicalObjectKeyName raw = .ok key →
    ∀ r ∈ s.lookup (objectLockSlot t name key), r = ⟨t, name, key, none, false, none, now⟩
  website : s.lookup (websiteSlot t name) = none
  replicationConfig : s.lookup (replicationConfigSlot t name) = none
  replicationStatus : ∀ r ∈ s.lookup (replicationStatusSlot t name),
    r = ⟨t, name, "", 0, 0, 0, some "replication_not_started"⟩

theorem getD_eq_iff {α : Type} {o : Option α} {a : α} : o.getD a = a ↔ ∀ r ∈ o, r = a := by
  cases o <;> simp

/-! ### What the answers are made of -/

theorem runE_bind_fst {α β : Type} {x : Dist α} {f : α → Dist β} {r : Except ApiError α}
    (hx : runE (act d) x s = (r, s)) :
    (runE (act d) (x >>= f) s).1 = r >>= fun a => (runE (act d) (f a) s).1 := by
  rw [Prog.runE_bind, hx]
  cases r <;> rfl

/-- The read decision, from what is left under the name of the bucket. -/
def readScope (s : Server) (auth : AuthContext) (t : TenantId) (name : String)
    (key : Option String) : Except ApiError Unit := do
  ensureTenantMatches auth t
  if hasReadCapability auth || (s.lookup (bucketAclSlot t name)).any (aclAllowsRead ·.acl) ||
      key.any fun k => (s.lookup (objectAclSlot t name k)).any (aclAllowsRead ·.acl) then
    ensureBucketScopeMatches auth (some name) key
  else throw ⟨.auth, "acl_denied", "read request is blocked by ACL policy"⟩

theorem runE_ensureBucketReadScopeFor (auth : AuthContext) (key : Option String) :
    runE (act d) (ensureBucketReadScopeFor auth t name key) s =
      (readScope s auth t name key, s) := by
  rw [ensureBucketReadScopeFor, readScope, Prog.runE_bind, runE_ofExcept]
  cases ensureTenantMatches auth t with
  | error e => rfl
  | ok _ =>
    cases hread : hasReadCapability auth with
    | true => rfl
    | false =>
      dsimp only
      rw [if_neg (by simp), runE_read_bind]
      cases hbucket : (s.lookup (bucketAclSlot t name)).any (aclAllowsRead ·.acl) with
      | true => rfl
      | false =>
        rw [if_neg (by simp)]
        cases key with
        | none => rfl
        | some k =>
          have hobject : runE (act d) (objectAclAllowsRead t name (some k)) s =
              (.ok ((s.lookup (objectAclSlot t name k)).any (aclAllowsRead ·.acl)), s) := rfl
          rw [runE_bind_ok _ hobject]
          cases hacl : (s.lookup (objectAclSlot t name k)).any (aclAllowsRead ·.acl) with
          | true => simp [hacl]
          | false => simp [hacl]

theorem runE_requireBucket (b : String) :
    runE (act d) (requireBucket t b) s = ((runE (act d) (requireBucket t b) s).1, s) := by
  unfold requireBucket
  cases canonicalBucketName b with
  | error e => rfl
  | ok b =>
    rw [runE_ofExcept_bind, bucketRecord, runE_read_bind]
    cases s.lookup (bucketSlot t b) <;> rfl

section Answers

variable {bucket raw key : String} (hbucket : canonicalBucketName bucket = .ok name)
  (hkey : canonicalObjectKeyName raw = .ok key) (auth : AuthContext)

include hbucket

theorem getBucketAcl_eq : (runE (act d) (getBucketAcl auth t bucket) s).1 = (do
    readScope s auth t name none
    let _ ← (runE (act d) (requireBucket t name) s).1
    return (s.lookup (bucketAclSlot t name)).getD ⟨t, name, .private, d.clock s.alpha.tick⟩) := by
  rw [getBucketAcl, hbucket, runE_ofExcept_bind,
    runE_bind_fst (runE_ensureBucketReadScopeFor auth none)]
  refine congrArg _ (funext fun _ => ?_)
  rw [runE_bind_fst (runE_requireBucket name)]
  rfl

theorem getLifecycleConfig_eq : (runE (act d) (getLifecycleConfig auth t bucket) s).1 = (do
    readScope s auth t name none
    let _ ← (runE (act d) (requireBucket t name) s).1
    match s.lookup (lifecycleSlot t name) with
    | some config => return config
    | none =>
      throw ⟨.notFound, "lifecycle_not_found", "bucket lifecycle configuration not found"⟩) := by
  rw [getLifecycleConfig, hbucket, runE_ofExcept_bind,
    runE_bind_fst (runE_ensureBucketReadScopeFor auth none)]
  refine congrArg _ (funext fun _ => ?_)
  rw [runE_bind_fst (runE_requireBucket name)]
  refine congrArg _ (funext fun _ => ?_)
  rw [runE_bind_fst (runE_readEncryptedJson d s _)]
  cases s.lookup (lifecycleSlot t name) <;> rfl

theorem getWebsiteConfig_eq : (runE (act d) (getWebsiteConfig auth t bucket) s).1 = (do
    readScope s auth t name none
    match s.lookup (websiteSlot t name) with
    | some config => return config
    | none =>
      throw ⟨.notFound, "website_config_not_found", "website configuration not found"⟩) := by
  rw [getWebsiteConfig, hbucket, runE_ofExcept_bind,
    runE_bind_fst (runE_ensureBucketReadScopeFor auth none)]
  refine congrArg _ (funext fun _ => ?_)
  rw [runE_bind_fst (runE_readEncryptedJson d s _)]
  cases s.lookup (websiteSlot t name) <;> rfl

theorem getReplicationConfig_eq :
    (runE (act d) (getReplicationConfig auth t bucket) s).1 = (do
      readScope s auth t name none
      match s.lookup (replicationConfigSlot t name) with
      | some config => return config
      | none =>
        throw ⟨.notFound, "replication_not_found", "replication configuration not found"⟩) := by
  rw [getReplicationConfig, hbucket, runE_ofExcept_bind,
    runE_bind_fst (runE_ensureBucketReadScopeFor auth none)]
  refine congrArg _ (funext fun _ => ?_)
  rw [runE_bind_fst (runE_readEncryptedJson d s _)]
  cases s.lookup (replicationConfigSlot t name) <;> rfl

theorem getReplicationStatus_eq :
    (runE (act d) (getReplicationStatus auth t bucket) s).1 = (do
      readScope s auth t name none
      return (s.lookup (replicationStatusSlot t name)).getD
        ⟨t, name, "", 0, 0, 0, some "replication_not_started"⟩) := by
  rw [getReplicationStatus, hbucket, runE_ofExcept_bind,
    runE_bind_fst (runE_ensureBucketReadScopeFor auth none)]
  rfl

include hkey

theorem getObjectAcl_eq : (runE (act d) (getObjectAcl auth t bucket raw) s).1 = (do
    readScope s auth t name (some key)
    let _ ← (runE (act d) (requireBucket t name) s).1
    return (s.lookup (objectAclSlot t name key)).getD
      ⟨t, name, key, .private, d.clock s.alpha.tick⟩) := by
  rw [getObjectAcl, hbucket, runE_ofExcept_bind, hkey, runE_ofExcept_bind,
    runE_bind_fst (runE_ensureBucketReadScopeFor auth (some key))]
  refine congrArg _ (funext fun _ => ?_)
  rw [runE_bind_fst (runE_requireBucket name)]
  rfl

theorem getObjectLock_eq : (runE (act d) (getObjectLock auth t bucket raw) s).1 = (do
    readScope s auth t name (some key)
    return (s.lookup (objectLockSlot t name key)).getD
      ⟨t, name, key, none, false, none, d.clock s.alpha.tick⟩) := by
  rw [getObjectLock, hbucket, runE_ofExcept_bind, hkey, runE_ofExcept_bind,
    runE_bind_fst (runE_ensureBucketReadScopeFor auth (some key))]
  rfl

end Answers

/-! ### Freshness -/

theorem readScope_of_unmarked {now : ℕ} (h : Unmarked t name now s) (auth : AuthContext)
    {key : Option String} (hkey : ∀ k ∈ key, ∃ raw, canonicalObjectKeyName raw = .ok k) :
    readScope s auth t name key = claimsReadScope auth t name key := by
  have hbucket : (s.lookup (bucketAclSlot t name)).any (aclAllowsRead ·.acl) = false := by
    cases hr : s.lookup (bucketAclSlot t name) with
    | none => rfl
    | some r =>
      rw [h.bucketAcl r hr]
      rfl
  have hobject : key.any (fun k => (s.lookup (objectAclSlot t name k)).any
      (aclAllowsRead ·.acl)) = false := by
    cases key with
    | none => rfl
    | some k =>
      obtain ⟨raw, hraw⟩ := hkey k rfl
      rw [Option.any_some]
      cases hr : s.lookup (objectAclSlot t name k) with
      | none => rfl
      | some r =>
        rw [h.objectAcl raw k hraw r hr]
        rfl
  rw [readScope, claimsReadScope, hbucket, hobject, Bool.or_false, Bool.or_false]

/-- **A bucket under whose name nothing is left is fresh.** -/
theorem freshlyAnswered_of_unmarked (h : Unmarked t name (d.clock s.alpha.tick) s) :
    FreshlyAnswered d t name s where
  reads auth key hkey := by
    rw [runE_ensureBucketReadScopeFor, readScope_of_unmarked h auth hkey]
  unlocked auth key deleteOp hkey := by
    obtain ⟨raw, hraw⟩ := hkey
    rw [ensureObjectMutationUnlocked, runE_read_bind]
    cases hr : s.lookup (objectLockSlot t name key) with
    | none => rfl
    | some r =>
      rw [h.objectLock raw key hraw r hr]
      rfl
  bucketAcl auth bucket hbucket := by
    rw [getBucketAcl_eq hbucket, readScope_of_unmarked h auth (by simp), getD_eq_iff.2 h.bucketAcl]
  objectAcl auth bucket raw key hbucket hkey := by
    rw [getObjectAcl_eq hbucket hkey,
      readScope_of_unmarked h auth (by rintro _ ⟨⟩; exact ⟨raw, hkey⟩),
      getD_eq_iff.2 (h.objectAcl raw key hkey)]
  lifecycle auth bucket hbucket := by
    rw [getLifecycleConfig_eq hbucket, readScope_of_unmarked h auth (by simp), h.lifecycle]
  objectLock auth bucket raw key hbucket hkey := by
    rw [getObjectLock_eq hbucket hkey,
      readScope_of_unmarked h auth (by rintro _ ⟨⟩; exact ⟨raw, hkey⟩),
      getD_eq_iff.2 (h.objectLock raw key hkey)]
  website auth bucket hbucket := by
    rw [getWebsiteConfig_eq hbucket, readScope_of_unmarked h auth (by simp), h.website]
  replicationConfig auth bucket hbucket := by
    rw [getReplicationConfig_eq hbucket, readScope_of_unmarked h auth (by simp),
      h.replicationConfig]
  replicationStatus auth bucket hbucket := by
    rw [getReplicationStatus_eq hbucket, readScope_of_unmarked h auth (by simp),
      getD_eq_iff.2 h.replicationStatus]

/-- A caller who may read all of a tenant. -/
def tenantReader (t : TenantId) : AuthContext where
  claims := {
    iss := "", sub := "", aud := "", exp := 0, nbf := none, jti := none, ops := [.read]
    tenantId := t, namespacePrefix := none, pathPrefix := none, maxObjectSize := none
    storageClasses := [], keyPolicyId := none, metadataVisibility := none }
  channelBinding := none

theorem claimsReadScope_tenantReader (key : Option String) :
    claimsReadScope (tenantReader t) t name key = .ok () := by
  simp [claimsReadScope, ensureTenantMatches, tenantReader, hasReadCapability,
    ensureBucketScopeMatches, ensureScope]

theorem readScope_tenantReader (key : Option String) :
    readScope s (tenantReader t) t name key = .ok () := by
  simp [readScope, ensureTenantMatches, tenantReader, hasReadCapability,
    ensureBucketScopeMatches, ensureScope]

theorem requireBucket_registered (hstable : canonicalBucketName name = .ok name)
    (hrecord : s.lookup (bucketSlot t name) = some record) :
    (runE (act d) (requireBucket t name) s).1 = .ok record := by
  rw [requireBucket, hstable, runE_ofExcept_bind, bucketRecord, runE_read_bind, hrecord]
  rfl

/-- **A fresh bucket has nothing left under its name**, as far as anyone can tell. -/
theorem unmarked_of_freshlyAnswered (hstable : canonicalBucketName name = .ok name)
    (hrecord : s.lookup (bucketSlot t name) = some record) (h : FreshlyAnswered d t name s) :
    Unmarked t name (d.clock s.alpha.tick) s := by
  -- All questions are asked by a caller who may read everything.
  have hclaims (key : Option String) : claimsReadScope (tenantReader t) t name key = .ok () :=
    claimsReadScope_tenantReader key
  have hscope (key : Option String) : readScope s (tenantReader t) t name key = .ok () :=
    readScope_tenantReader key
  have hrequired := requireBucket_registered (d := d) hstable hrecord
  constructor
  · have hanswer := h.bucketAcl (tenantReader t) name hstable
    rw [getBucketAcl_eq hstable, hscope, hclaims, hrequired] at hanswer
    exact getD_eq_iff.1 (Except.ok.inj hanswer)
  · intro raw key hkey
    have hanswer := h.objectAcl (tenantReader t) name raw key hstable hkey
    rw [getObjectAcl_eq hstable hkey, hscope, hclaims, hrequired] at hanswer
    exact getD_eq_iff.1 (Except.ok.inj hanswer)
  · have hanswer := h.lifecycle (tenantReader t) name hstable
    rw [getLifecycleConfig_eq hstable, hscope, hclaims, hrequired] at hanswer
    cases hr : s.lookup (lifecycleSlot t name) with
    | none => rfl
    | some config => rw [hr] at hanswer; cases hanswer
  · intro raw key hkey
    have hanswer := h.objectLock (tenantReader t) name raw key hstable hkey
    rw [getObjectLock_eq hstable hkey, hscope, hclaims] at hanswer
    exact getD_eq_iff.1 (Except.ok.inj hanswer)
  · have hanswer := h.website (tenantReader t) name hstable
    rw [getWebsiteConfig_eq hstable, hscope, hclaims] at hanswer
    cases hr : s.lookup (websiteSlot t name) with
    | none => rfl
    | some config => rw [hr] at hanswer; cases hanswer
  · have hanswer := h.replicationConfig (tenantReader t) name hstable
    rw [getReplicationConfig_eq hstable, hscope, hclaims] at hanswer
    cases hr : s.lookup (replicationConfigSlot t name) with
    | none => rfl
    | some config => rw [hr] at hanswer; cases hanswer
  · have hanswer := h.replicationStatus (tenantReader t) name hstable
    rw [getReplicationStatus_eq hstable, hscope, hclaims] at hanswer
    exact getD_eq_iff.1 (Except.ok.inj hanswer)

/-! ### Deletion and creation -/

theorem Unmarked.of_lookup {s' : Server} {now : ℕ} (h : Unmarked t name now s)
    (hsame : ∀ a : Slot, a.kind ∉ [Kind.bucketRegistry, .bucketMeta] →
      s'.lookup a = s.lookup a) : Unmarked t name now s' where
  bucketAcl r hr := h.bucketAcl r ((hsame _ (by simp)).symm.trans hr)
  objectAcl raw key hkey r hr := h.objectAcl raw key hkey r ((hsame _ (by simp)).symm.trans hr)
  lifecycle := (hsame _ (by simp)).trans h.lifecycle
  objectLock raw key hkey r hr := h.objectLock raw key hkey r ((hsame _ (by simp)).symm.trans hr)
  website := (hsame _ (by simp)).trans h.website
  replicationConfig := (hsame _ (by simp)).trans h.replicationConfig
  replicationStatus r hr := h.replicationStatus r ((hsame _ (by simp)).symm.trans hr)

/-- The server after a bucket was deleted and created again. -/
def deletedAndCreated (d : Deployment) (auth auth' : AuthContext) (t : TenantId)
    (bucket bucket' : String) (s : Server) : Server :=
  ((Request.createBucket auth' t bucket').perform d
    ((Request.deleteBucket auth t bucket).perform d s).2).2

theorem lookup_deletedAndCreated {auth auth' : AuthContext} {bucket bucket' : String} (a : Slot)
    (ha : a.kind ∉ [Kind.bucketRegistry, .bucketMeta]) :
    (deletedAndCreated d auth auth' t bucket bucket' s).lookup a = s.lookup a :=
  (Request.lookup_perform _ _ ha).trans (Request.lookup_perform _ _ ha)

theorem lookup_bucketSlot_of_create {auth : AuthContext} {bucket : String}
    (hname : canonicalBucketName bucket = .ok name)
    (h : ((Request.createBucket auth t bucket).perform d s).1 = .ok record) :
    ((Request.createBucket auth t bucket).perform d s).2.lookup (bucketSlot t name) =
      some record := by
  have hrun : runE (act d) (createBucket d auth t bucket) s =
      (.ok record, ((Request.createBucket auth t bucket).perform d s).2) := Prod.ext h rfl
  generalize ((Request.createBucket auth t bucket).perform d s).2 = s' at hrun ⊢
  rw [createBucket, hname, runE_ofExcept_bind] at hrun
  obtain ⟨_, s₁, -, hrun⟩ := runE_bind_eq_ok _ hrun
  obtain ⟨_, s₂, -, hrun⟩ := runE_bind_eq_ok _ hrun
  obtain ⟨_, s₃, -, hrun⟩ := runE_bind_eq_ok _ hrun
  obtain ⟨_, s₄, -, hrun⟩ := runE_bind_eq_ok _ hrun
  obtain ⟨_, s₅, hwrite, hrun⟩ := runE_bind_eq_ok _ hrun
  obtain ⟨_, s₆, hnow, hrun⟩ := runE_bind_eq_ok _ hrun
  obtain ⟨_, s₇, hmeta, hrun⟩ := runE_bind_eq_ok _ hrun
  rw [runE_writeEncryptedJson] at hwrite hmeta
  rw [runE_nowMs] at hnow
  cases hwrite
  cases hnow
  cases hmeta
  cases hrun
  rw [Server.lookup_put_of_ne (by simp)]
  exact Server.lookup_put s₄ _ _

/-- **A bucket that is created again** is fresh if nothing was left under its name before it was
deleted, and if its name is canonical, only then: neither the deletion nor the creation changes what
is kept there. -/
theorem recreated_fresh (d : Deployment) (requests : List Request) {auth auth' : AuthContext}
    {t : TenantId} {bucket bucket' name : String}
    (hname : canonicalBucketName bucket' = .ok name) {record : BucketRecord}
    (hcreate : ((Request.createBucket auth' t bucket').perform d
      ((Request.deleteBucket auth t bucket).perform d (runRequests d requests .empty)).2).1 =
        .ok record) :
    (Unmarked t name (d.clock (deletedAndCreated d auth auth' t bucket bucket'
        (runRequests d requests .empty)).alpha.tick) (runRequests d requests .empty) →
      FreshlyAnswered d t name (deletedAndCreated d auth auth' t bucket bucket'
        (runRequests d requests .empty))) ∧
    (canonicalBucketName name = .ok name →
      FreshlyAnswered d t name (deletedAndCreated d auth auth' t bucket bucket'
        (runRequests d requests .empty)) →
      Unmarked t name (d.clock (deletedAndCreated d auth auth' t bucket bucket'
        (runRequests d requests .empty)).alpha.tick) (runRequests d requests .empty)) := by
  constructor
  · intro h
    exact freshlyAnswered_of_unmarked (h.of_lookup fun a ha => lookup_deletedAndCreated a ha)
  · intro hstable h
    have hthere := lookup_bucketSlot_of_create hname hcreate
    exact (unmarked_of_freshlyAnswered hstable hthere h).of_lookup
      fun a ha => (lookup_deletedAndCreated a ha).symm

end Hsp.Distribution

namespace Hsp.Sample

open Hsp.Distribution

/-- A bucket is created, configured, deleted and created again. -/
def secondBucket (configuration : List Request) : Server :=
  deletedAndCreated (deployment [] [] 0) (auth "1") (auth "2") tenant "b" "b"
    (runRequests (deployment [] [] 0) (.createBucket (auth "0") tenant "b" :: configuration) .empty)

/-- The access control list of the bucket is changed and changed back. -/
def madePrivateAgain : List Request :=
  [.putBucketAcl (auth "3") tenant "b" .publicRead, .putBucketAcl (auth "4") tenant "b" .private]

theorem unmarked_configured : Unmarked tenant "b" 0 (runRequests (deployment [] [] 0)
    (.createBucket (auth "0") tenant "b" :: madePrivateAgain) .empty) := by
  have hnone (a : Slot) (ha : a.kind ∉ [Kind.bucketRegistry, .bucketMeta])
      (hacl : a.kind ∉ [Kind.bucketAcl]) : (runRequests (deployment [] [] 0)
        (.createBucket (auth "0") tenant "b" :: madePrivateAgain) .empty).lookup a = none := by
    simp only [madePrivateAgain, runRequests_cons]
    exact (Request.lookup_perform _ _ hacl).trans
      ((Request.lookup_perform _ _ hacl).trans (Request.lookup_perform _ _ ha))
  have hacl : (runRequests (deployment [] [] 0) (.createBucket (auth "0") tenant "b" ::
      madePrivateAgain) .empty).lookup (bucketAclSlot tenant "b") =
        some ⟨tenant, "b", .private, 0⟩ := by
    decide +kernel
  generalize runRequests (deployment [] [] 0) _ .empty = s at hnone hacl ⊢
  constructor
  · intro r hr
    exact Option.some.inj (hr.symm.trans hacl)
  all_goals simp [hnone]

/-- A bucket whose configuration is that of a new one is created again. -/
theorem second_bucket_fresh :
    FreshlyAnswered (deployment [] [] 0) tenant "b" (secondBucket madePrivateAgain) := by
  have hcreated : (((Request.createBucket (auth "2") tenant "b").perform (deployment [] [] 0)
      ((Request.deleteBucket (auth "1") tenant "b").perform (deployment [] [] 0)
        (runRequests (deployment [] [] 0) (.createBucket (auth "0") tenant "b" ::
          madePrivateAgain) .empty)).2).1).isOk := by
    decide +kernel
  obtain ⟨record, hr⟩ := exists_ok hcreated
  exact (recreated_fresh (deployment [] [] 0) (.createBucket (auth "0") tenant "b" ::
    madePrivateAgain) (by decide +kernel) hr).1 unmarked_configured

/-- A caller who has no scope. -/
def scopeless : AuthContext :=
  { auth "3" with claims := { (auth "3").claims with ops := [] } }

/-- The access control list and the lock of the first bucket are in force for the second one. -/
theorem second_bucket_marked :
    let configuration : List Request := [.putBucketAcl (auth "4") tenant "b" .publicRead,
      .putObjectLegalHold (auth "5") tenant "b" "k" true]
    let d := deployment [] [] 0
    let deleted := (Request.deleteBucket (auth "1") tenant "b").perform d
      (runRequests d (.createBucket (auth "0") tenant "b" :: configuration) .empty)
    (deleted.1 = .ok () ∧
      ((Request.createBucket (auth "2") tenant "b").perform d deleted.2).1.isOk) ∧
    ((Request.getBucketAcl (auth "6") tenant "b").perform d (secondBucket configuration)).1 =
      .ok ⟨tenant, "b", .publicRead, 0⟩ ∧
    (runE (act d) (ensureBucketReadScopeFor scopeless tenant "b" none)
      (secondBucket configuration)).1 = .ok () ∧
    (runE (act d) (ensureObjectMutationUnlocked tenant "b" "k" false (auth "7"))
      (secondBucket configuration)).1 =
        .error ⟨.conflict, "legal_hold_active", "object is under legal hold"⟩ := by
  decide +kernel

end Hsp.Sample
