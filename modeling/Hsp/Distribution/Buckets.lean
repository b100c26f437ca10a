import Hsp.Distribution.Scope

/-!
# Buckets and their configuration

The operations on buckets, access control lists, lifecycle and website configurations, locks and
replication configurations.  They look at the claims of the caller and write their own entries;
only `deleteBucket` asks the `AlphaService`, whether the bucket is empty.
-/

namespace Hsp.Distribution

variable (d : Deployment) (auth : AuthContext) (tenantId : TenantId)

/-! ### Buckets -/

def createBucket (bucket : String) : Dist BucketRecord := do
  let bucket ← ofExcept (canonicalBucketName bucket)
  ofExcept (ensureBucketMutationScopeFor auth tenantId (some bucket) none)
  let existing ← bucketRecord tenantId bucket
  rejectIf existing.isSome ⟨.conflict, "bucket_already_exists", "bucket already exists"⟩
  let createdAtMs ← nowMs
  let record : BucketRecord := {
    tenantId
    bucket
    ns := bucket
    visibilityPolicy := "signed-only"
    namespaceCacheTtlSec := d.namespaceTtlSec
    immutableCidCacheTtlSec := d.immutableCidTtlSec
    createdAtMs }
  writeEncryptedJson (bucketSlot tenantId bucket) record
  let updatedAtMs ← nowMs
  writeEncryptedJson (bucketMetaSlot tenantId bucket)
    { tenantId, bucket, edgeTokenPolicy := "signed", presignEnabled := true, updatedAtMs }
  return record

def listBuckets : Dist (List BucketSummary) := do
  ofExcept (ensureBucketReadScope auth tenantId)
  let records ← listEncryptedJson .bucketRegistry tenantId
  let summaries : List BucketSummary :=
    records.map fun record => ⟨record.bucket, record.ns, record.createdAtMs⟩
  return summaries.mergeSort fun left right => left.bucket ≤ right.bucket

def headBucket (bucket : String) : Dist BucketRecord := do
  let bucket ← ofExcept (canonicalBucketName bucket)
  ensureBucketReadScopeFor auth tenantId bucket none
  let record ← bucketRecord tenantId bucket
  orNotFound record "bucket_not_found" "bucket not found"

/-- Some upload to the bucket is not completed. -/
def hasMultipartSessions (bucket : String) : Dist Bool := do
  let entries ← listEncryptedJson .multipartSessions tenantId
  return entries.any fun entry => match entry with
    | .session session => session.bucket == bucket && !session.completed
    | .part _ => false

def deleteBucket (bucket : String) : Dist Unit := do
  let bucket ← ofExcept (canonicalBucketName bucket)
  ofExcept (ensureBucketMutationScopeFor auth tenantId (some bucket) none)
  -- The canonical name is canonicalized once more.
  let _ ← headBucket auth tenantId bucket
  let objects ← callAlpha (.list auth {
    tenantId, ns := bucket, pathPrefix := none, cursor := none, limit := some 1
    includeTombstones := false })
  rejectIf (objects.items ≠ [])
    ⟨.conflict, "bucket_not_empty", "bucket namespace still contains objects"⟩
  let active ← hasMultipartSessions tenantId bucket
  rejectIf active ⟨.conflict, "bucket_not_empty", "bucket still has active multipart uploads"⟩
  deleteStoreKey (bucketSlot tenantId bucket)
  deleteStoreKey (bucketMetaSlot tenantId bucket)

/-! ### The common beginnings -/

/-- A change of the configuration of an existing bucket. -/
def changeBucket (bucket : String) : Dist String := do
  let bucket ← ofExcept (canonicalBucketName bucket)
  ofExcept (ensureBucketMutationScopeFor auth tenantId (some bucket) none)
  let _ ← requireBucket tenantId bucket
  return bucket

/-- A change of the configuration of an object, which need not exist, in an existing bucket. -/
def changeObject (bucket key : String) : Dist (String × String) := do
  let bucket ← ofExcept (canonicalBucketName bucket)
  let key ← ofExcept (canonicalObjectKeyName key)
  ofExcept (ensureBucketMutationScopeFor auth tenantId (some bucket) (some key))
  let _ ← requireBucket tenantId bucket
  return (bucket, key)

/-- The removal of a part of a bucket's configuration; the bucket need not exist. -/
def removeConfig (bucket : String) (slots : String → List Slot) : Dist Unit := do
  let bucket ← ofExcept (canonicalBucketName bucket)
  ofExcept (ensureBucketMutationScopeFor auth tenantId (some bucket) none)
  (slots bucket).forM deleteStoreKey

/-! ### Access control lists -/

def putBucketAcl (bucket : String) (acl : CannedAcl) : Dist BucketAclRecord := do
  let bucket ← changeBucket auth tenantId bucket
  let updatedAtMs ← nowMs
  let record : BucketAclRecord := ⟨tenantId, bucket, acl, updatedAtMs⟩
  writeEncryptedJson (bucketAclSlot tenantId bucket) record
  return record

def getBucketAcl (bucket : String) : Dist BucketAclRecord := do
  let bucket ← ofExcept (canonicalBucketName bucket)
  ensureBucketReadScopeFor auth tenantId bucket none
  let _ ← requireBucket tenantId bucket
  let record ← readEncryptedJson (bucketAclSlot tenantId bucket)
  let updatedAtMs ← nowMs
  return record.getD ⟨tenantId, bucket, .private, updatedAtMs⟩

def putObjectAcl (bucket key : String) (acl : CannedAcl) : Dist ObjectAclRecord := do
  let (bucket, key) ← changeObject auth tenantId bucket key
  let updatedAtMs ← nowMs
  let record : ObjectAclRecord := ⟨tenantId, bucket, key, acl, updatedAtMs⟩
  writeEncryptedJson (objectAclSlot tenantId bucket key) record
  return record

def getObjectAcl (bucket key : String) : Dist ObjectAclRecord := do
  let bucket ← ofExcept (canonicalBucketName bucket)
  let key ← ofExcept (canonicalObjectKeyName key)
  ensureBucketReadScopeFor auth tenantId bucket (some key)
  let _ ← requireBucket tenantId bucket
  let record ← readEncryptedJson (objectAclSlot tenantId bucket key)
  let updatedAtMs ← nowMs
  return record.getD ⟨tenantId, bucket, key, .private, updatedAtMs⟩

/-! ### Lifecycle configurations -/

/-- The rule says neither when to expire objects nor when and where to move them. -/
def LifecycleRule.isIdle (rule : LifecycleRule) : Bool :=
  rule.expireAfterDays.isNone &&
    (rule.transitionAfterDays.isNone || rule.transitionStorageClass.isNone)

def putLifecycleConfig (config : LifecycleConfig) : Dist LifecycleConfig := do
  let bucket ← changeBucket auth config.tenantId config.bucket
  rejectIf (config.rules.any LifecycleRule.isIdle)
    ⟨.validation, "lifecycle_conflict",
      "lifecycle rule must define expiration or transition action"⟩
  let updatedAtMs ← nowMs
  let config := { config with bucket, updatedAtMs }
  writeEncryptedJson (lifecycleSlot config.tenantId bucket) config
  return config

def getLifecycleConfig (bucket : String) : Dist LifecycleConfig := do
  let bucket ← ofExcept (canonicalBucketName bucket)
  ensureBucketReadScopeFor auth tenantId bucket none
  let _ ← requireBucket tenantId bucket
  let config ← readEncryptedJson (lifecycleSlot tenantId bucket)
  orNotFound config "lifecycle_not_found" "bucket lifecycle configuration not found"

def deleteLifecycleConfig (bucket : String) : Dist Unit :=
  removeConfig auth tenantId bucket fun bucket => [lifecycleSlot tenantId bucket]

/-! ### Locks -/

/-- The lock of an object, or one that locks nothing. -/
def objectLockOrDefault (bucket key : String) : Dist ObjectLockRecord := do
  let record ← readEncryptedJson (objectLockSlot tenantId bucket key)
  let updatedAtMs ← nowMs
  return record.getD ⟨tenantId, bucket, key, none, false, none, updatedAtMs⟩

def putObjectRetention (bucket key : String) (immutableUntilMs : Option UInt64)
    (mode : Option String) : Dist ObjectLockRecord := do
  let (bucket, key) ← changeObject auth tenantId bucket key
  let record ← objectLockOrDefault tenantId bucket key
  ensureRetentionUpdateAllowed record immutableUntilMs mode auth
  let updatedAtMs ← nowMs
  let record := { record with immutableUntilMs, mode, updatedAtMs }
  writeEncryptedJson (objectLockSlot tenantId bucket key) record
  return record

def putObjectLegalHold (bucket key : String) (legalHold : Bool) : Dist ObjectLockRecord := do
  let (bucket, key) ← changeObject auth tenantId bucket key
  let record ← objectLockOrDefault tenantId bucket key
  if record.legalHold && !legalHold then
    ofExcept (requireAdminRepair auth "legal_hold_active")
  let updatedAtMs ← nowMs
  let record := { record with legalHold, updatedAtMs }
  -- The record is written where it says it belongs.
  writeEncryptedJson (objectLockSlot record.tenantId record.bucket record.key) record
  return record

def getObjectLock (bucket key : String) : Dist ObjectLockRecord := do
  let bucket ← ofExcept (canonicalBucketName bucket)
  let key ← ofExcept (canonicalObjectKeyName key)
  ensureBucketReadScopeFor auth tenantId bucket (some key)
  objectLockOrDefault tenantId bucket key

/-! ### Website configurations -/

def putWebsiteConfig (config : WebsiteConfig) : Dist WebsiteConfig := do
  let bucket ← changeBucket auth config.tenantId config.bucket
  rejectIf (config.accessProfile ≠ .trustedEdgeV1 ∨ !d.plaintextProfileEnabled)
    ⟨.policy, "trusted_edge_required",
      "website hosting mode is allowed only for trusted-edge-v1 profile"⟩
  let updatedAtMs ← nowMs
  let config := { config with bucket, updatedAtMs }
  writeEncryptedJson (websiteSlot config.tenantId bucket) config
  return config

def getWebsiteConfig (bucket : String) : Dist WebsiteConfig := do
  let bucket ← ofExcept (canonicalBucketName bucket)
  ensureBucketReadScopeFor auth tenantId bucket none
  let config ← readEncryptedJson (websiteSlot tenantId bucket)
  orNotFound config "website_config_not_found" "website configuration not found"

def deleteWebsiteConfig (bucket : String) : Dist Unit :=
  removeConfig auth tenantId bucket fun bucket => [websiteSlot tenantId bucket]

/-! ### Replication configurations -/

def putReplicationConfig (config : ReplicationConfig) : Dist ReplicationConfig := do
  let sourceBucket ← ofExcept (canonicalBucketName config.sourceBucket)
  let destinationBucket ← ofExcept (canonicalBucketName config.destinationBucket)
  ofExcept (ensureBucketMutationScopeFor auth config.tenantId (some sourceBucket)
    config.pathPrefix)
  ofExcept (ensureBucketMutationScopeFor auth config.tenantId (some destinationBucket)
    config.pathPrefix)
  rejectIf (sourceBucket = destinationBucket)
    ⟨.validation, "lifecycle_conflict", "replication source and destination buckets must differ"⟩
  let _ ← requireBucket config.tenantId sourceBucket
  let _ ← requireBucket config.tenantId destinationBucket
  let updatedAtMs ← nowMs
  let config := { config with sourceBucket, destinationBucket, updatedAtMs }
  writeEncryptedJson (replicationConfigSlot config.tenantId sourceBucket) config
  return config

def getReplicationConfig (sourceBucket : String) : Dist ReplicationConfig := do
  let sourceBucket ← ofExcept (canonicalBucketName sourceBucket)
  ensureBucketReadScopeFor auth tenantId sourceBucket none
  let config ← readEncryptedJson (replicationConfigSlot tenantId sourceBucket)
  orNotFound config "replication_not_found" "replication configuration not found"

def getReplicationStatus (sourceBucket : String) : Dist ReplicationStatus := do
  let sourceBucket ← ofExcept (canonicalBucketName sourceBucket)
  ensureBucketReadScopeFor auth tenantId sourceBucket none
  let status ← readEncryptedJson (replicationStatusSlot tenantId sourceBucket)
  return status.getD ⟨tenantId, sourceBucket, "", 0, 0, 0, some "replication_not_started"⟩

def deleteReplicationConfig (sourceBucket : String) : Dist Unit :=
  removeConfig auth tenantId sourceBucket fun bucket =>
    [replicationConfigSlot tenantId bucket, replicationStatusSlot tenantId bucket]

end Hsp.Distribution
