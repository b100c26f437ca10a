import Hsp.Service.Call

/-!
# The data model of the distribution service

The records, requests and responses of `hsp-distribution`, the canonical names of buckets and
objects, and the keys its records are stored under.  `DistributionService` keeps buckets, access
control lists, locks and multipart uploads in a store of its own; objects and namespaces are kept
by the `AlphaService` below it.
-/

namespace Hsp.Distribution

def defaultStorageClass : String := "hot"

def fixedChunkSize : ℕ := 1024 * 1024

def trustedEdgeRecipientKeyId : String := "trusted-edge"

/-! ### Stored records -/

structure BucketRecord where
  tenantId : TenantId
  bucket : String
  ns : String
  visibilityPolicy : String
  namespaceCacheTtlSec : ℕ
  immutableCidCacheTtlSec : ℕ
  createdAtMs : ℕ
  deriving DecidableEq

inductive AccessProfile where
  | publicCiphertext | trustedEdgeV1
  deriving DecidableEq

inductive CannedAcl where
  | «private» | publicRead | authenticatedRead
  deriving DecidableEq

structure BucketAclRecord where
  tenantId : TenantId
  bucket : String
  acl : CannedAcl
  updatedAtMs : ℕ
  deriving DecidableEq

structure ObjectAclRecord where
  tenantId : TenantId
  bucket : String
  key : String
  acl : CannedAcl
  updatedAtMs : ℕ
  deriving DecidableEq

structure LifecycleRule where
  id : String
  pathPrefix : Option String
  expireAfterDays : Option UInt32
  transitionAfterDays : Option UInt32
  transitionStorageClass : Option String
  enabled : Bool
  deriving DecidableEq

structure LifecycleConfig where
  tenantId : TenantId
  bucket : String
  rules : List LifecycleRule
  updatedAtMs : ℕ
  deriving DecidableEq

structure ObjectLockRecord where
  tenantId : TenantId
  bucket : String
  key : String
  immutableUntilMs : Option UInt64
  legalHold : Bool
  mode : Option String
  updatedAtMs : ℕ
  deriving DecidableEq

structure WebsiteConfig where
  tenantId : TenantId
  bucket : String
  enabled : Bool
  indexDocument : String
  errorDocument : String
  accessProfile : AccessProfile
  updatedAtMs : ℕ
  deriving DecidableEq

structure ReplicationConfig where
  tenantId : TenantId
  sourceBucket : String
  destinationBucket : String
  pathPrefix : Option String
  enabled : Bool
  updatedAtMs : ℕ
  deriving DecidableEq

structure ReplicationStatus where
  tenantId : TenantId
  sourceBucket : String
  destinationBucket : String
  copiedObjects : ℕ
  failedObjects : ℕ
  lastRunMs : ℕ
  lastError : Option String
  deriving DecidableEq

structure DistributionMetadataRecord where
  tenantId : TenantId
  bucket : String
  edgeTokenPolicy : String
  presignEnabled : Bool
  updatedAtMs : ℕ
  deriving DecidableEq

structure MultipartSessionRecord where
  uploadId : String
  tenantId : TenantId
  bucket : String
  key : String
  accessProfile : AccessProfile
  payloadPlaintext : Bool
  contentType : String
  encryptionProfileId : EncryptionProfileId
  keyPolicyId : KeyPolicyId
  metadataVisibility : VisibilityMode
  contentEncryptionSuite : String
  keyWrappingSuite : String
  wrappedObjectKeys : List WrappedObjectKeyRecord
  serverVisibleMetadata : Metadata
  encryptedClientMetadata : Metadata
  storageClass : String
  initiatedAtMs : ℕ
  idempotencyKey : String
  completed : Bool
  deriving DecidableEq

structure MultipartPartRecord where
  uploadId : String
  partNumber : UInt32
  etag : String
  length : UInt64
  createdAtMs : ℕ
  deriving DecidableEq

/-- The multipart store holds the sessions and the metadata of their parts. -/
inductive MultipartEntry where
  | session (record : MultipartSessionRecord)
  | part (record : MultipartPartRecord)
  deriving DecidableEq

/-! ### Requests and responses -/

structure BucketSummary where
  bucket : String
  ns : String
  createdAtMs : ℕ
  deriving DecidableEq

structure PutObjectRequest where
  tenantId : TenantId
  bucket : String
  key : String
  accessProfile : AccessProfile
  payloadPlaintext : Bool
  contentType : String
  encryptionProfileId : EncryptionProfileId
  keyPolicyId : KeyPolicyId
  metadataVisibility : VisibilityMode
  contentEncryptionSuite : String
  keyWrappingSuite : String
  wrappedObjectKeys : List WrappedObjectKeyRecord
  serverVisibleMetadata : Metadata
  encryptedClientMetadata : Metadata
  storageClass : String
  idempotencyKey : String

structure PutObjectResponse where
  bucket : String
  key : String
  objectCid : String
  manifestCid : String
  etag : String
  eventSeq : ℕ
  deriving DecidableEq

structure HeadObjectRequest where
  tenantId : TenantId
  bucket : String
  key : String

structure HeadObjectResponse where
  «exists» : Bool
  deleted : Bool
  cid : String
  bucket : String
  key : String
  objectCid : String
  manifestCid : String
  integrityHash : String
  etag : String
  sizeBytes : UInt64
  ciphertextSizeBytes : UInt64
  contentLength : UInt64
  contentType : String
  lastModifiedMs : UInt64
  encryptionProfileId : EncryptionProfileId
  keyPolicyId : KeyPolicyId
  serverVisibleMetadata : Metadata
  encryptedClientMetadataRedacted : Bool
  metadataVisibility : VisibilityMode
  deriving DecidableEq

structure GetObjectRequest where
  tenantId : TenantId
  bucket : Option String
  key : Option String
  cid : Option String
  accessProfile : AccessProfile
  preferPlaintext : Bool
  range : Option RangeSpec
  ifMatch : Option String
  ifNoneMatch : Option String

structure GetObjectResponse where
  head : HeadObjectResponse
  body : List UInt8
  immutable : Bool
  cacheControl : String
  contentRange : Option String
  deriving DecidableEq

structure DeleteObjectRequest where
  tenantId : TenantId
  bucket : String
  key : String
  idempotencyKey : String

structure DeleteObjectResponse where
  bucket : String
  key : String
  tombstone : Bool
  revision : ℕ
  recordCid : String
  eventSeq : ℕ
  deriving DecidableEq

structure ListObjectsRequest where
  tenantId : TenantId
  bucket : String
  pathPrefix : Option String
  continuationToken : Option String
  limit : Option UInt32

structure ObjectListItem where
  key : String
  etag : String
  contentLength : UInt64
  contentType : String
  lastModifiedMs : UInt64
  serverVisibleMetadata : Metadata
  deriving DecidableEq

structure ListObjectsResponse where
  bucket : String
  items : List ObjectListItem
  nextContinuationToken : Option String
  isTruncated : Bool
  deriving DecidableEq

structure CopyObjectRequest where
  tenantId : TenantId
  sourceBucket : String
  sourceKey : String
  destinationBucket : String
  destinationKey : String
  idempotencyKey : String

structure CopyObjectResponse where
  bucket : String
  key : String
  objectCid : String
  revision : ℕ
  recordCid : String
  eventSeq : ℕ
  deriving DecidableEq

structure CreateMultipartUploadRequest where
  tenantId : TenantId
  bucket : String
  key : String
  accessProfile : AccessProfile
  payloadPlaintext : Bool
  contentType : String
  encryptionProfileId : EncryptionProfileId
  keyPolicyId : KeyPolicyId
  metadataVisibility : VisibilityMode
  contentEncryptionSuite : String
  keyWrappingSuite : String
  wrappedObjectKeys : List WrappedObjectKeyRecord
  serverVisibleMetadata : Metadata
  encryptedClientMetadata : Metadata
  storageClass : String
  idempotencyKey : String

structure CreateMultipartUploadResponse where
  bucket : String
  key : String
  uploadId : String
  deriving DecidableEq

structure UploadPartRequest where
  tenantId : TenantId
  uploadId : String
  partNumber : UInt32

structure UploadPartResponse where
  uploadId : String
  partNumber : UInt32
  etag : String
  length : UInt64
  deriving DecidableEq

structure CompletedMultipartPart where
  partNumber : UInt32
  etag : String
  deriving DecidableEq

structure CompleteMultipartUploadRequest where
  tenantId : TenantId
  uploadId : String
  parts : List CompletedMultipartPart

structure AbortMultipartUploadRequest where
  tenantId : TenantId
  uploadId : String

/-! ### Canonical names -/

/-- An error about the name of a bucket. -/
def invalidBucket (message : String) : ApiError := ⟨.validation, "invalid_bucket", message⟩

def canonicalBucketName (bucket : String) : Except ApiError String :=
  if trimIsEmpty bucket ∨ '/' ∈ bucket.toList then
    .error (invalidBucket "bucket name must be non-empty and must not contain '/'")
  else match canonicalPath bucket with
    | .error error => .error (invalidBucket error.display)
    | .ok canonical =>
      if trimIsEmpty canonical ∨ '/' ∈ canonical.toList then
        .error (invalidBucket
          "bucket name must remain a single canonical segment after percent-decoding")
      else .ok canonical

def canonicalObjectKeyName (key : String) : Except ApiError String :=
  match canonicalPath key with
  | .error error => .error ⟨.validation, "invalid_object_key", error.display⟩
  | .ok canonical => .ok canonical

/-- An object that does not resolve is reported as missing, whatever the reason. -/
def mapObjectError (error : ApiError) : ApiError :=
  if error.code = "path_not_bound" ∨ error.code = "path_tombstoned" ∨
      error.code = "manifest_not_found" then
    ⟨.notFound, "object_not_found", "object not found"⟩
  else error

/-! ### Store keys -/

/-- A number of at least five digits, as `{:05}` prints it. -/
def fiveDigits (n : ℕ) : String :=
  String.ofList (List.replicate (5 - (toString n).length) '0') ++ toString n

def multipartPartStoreKey (uploadId : String) (partNumber : UInt32) : String :=
  uploadId ++ "-part-" ++ fiveDigits partNumber.toNat

def bucketAclStoreKey (bucket : String) : String := "bucket-" ++ bucket

def objectAclStoreKey (bucket key : String) : String := "object-" ++ bucket ++ "-" ++ key

def lifecycleStoreKey (bucket : String) : String := "bucket-" ++ bucket

def objectLockStoreKey (bucket key : String) : String := "object-" ++ bucket ++ "-" ++ key

def websiteStoreKey (bucket : String) : String := "bucket-" ++ bucket

def replicationConfigStoreKey (sourceBucket : String) : String := "config-" ++ sourceBucket

def replicationStatusStoreKey (sourceBucket : String) : String := "status-" ++ sourceBucket

example : multipartPartStoreKey "u" 42 = "u-part-00042" := by decide +kernel

end Hsp.Distribution
