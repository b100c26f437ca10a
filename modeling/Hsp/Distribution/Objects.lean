import Hsp.Distribution.Buckets

/-!
# Objects

An object is uploaded to the `AlphaService` in chunks of one size and bound to its key, in the
namespace of its bucket, by the commit of the upload.  Every call to the `AlphaService` resolves
the key on its own.
-/

namespace Hsp.Distribution

variable (d : Deployment)

/-! ### Manifests -/

/-- What an object is described with, apart from its chunks. -/
structure Description where
  tenantId : TenantId
  contentType : String
  encryptionProfileId : EncryptionProfileId
  keyPolicyId : KeyPolicyId
  metadataVisibility : VisibilityMode
  contentEncryptionSuite : String
  keyWrappingSuite : String
  wrappedObjectKeys : List WrappedObjectKeyRecord
  serverVisibleMetadata : Metadata
  encryptedClientMetadata : Metadata

/-- The fields of the manifest of some chunks. -/
def Description.manifestFields (input : Description) (chunkRefs : List ChunkRef)
    (sizeBytes : UInt64) (createdAtMs : ℕ) : ManifestFields where
  version := 1
  tenantId := input.tenantId
  logicalSize := sizeBytes
  storedSize := sizeBytes
  chunker := "fixed-1m"
  chunkRefs := chunkRefs
  contentType := input.contentType
  createdAtMs := .ofNat createdAtMs
  encryptionDescriptor := {
    encryptionProfileId := input.encryptionProfileId
    keyPolicyId := input.keyPolicyId
    contentEncryptionSuite := input.contentEncryptionSuite
    keyWrappingSuite := input.keyWrappingSuite
    metadataVisibility := input.metadataVisibility
    wrappedObjectKeys := input.wrappedObjectKeys
    serverVisibleMetadata := input.serverVisibleMetadata
    encryptedClientMetadata := input.encryptedClientMetadata }

/-- A value that does not fit in memory is not built; the source has no such case. -/
def capacityExceeded : ApiError := ⟨.storage, "capacity_exceeded", "value does not fit in memory"⟩

def buildManifestFromChunkRefs (input : Description) (chunkRefs : List ChunkRef)
    (sizeBytes : UInt64) : Dist Manifest := do
  let createdAtMs ← nowMs
  let fields := input.manifestFields chunkRefs sizeBytes createdAtMs
  if h : fields.canonicalValue.Fits then do
    let manifest : Manifest := ⟨fields, h⟩
    ofExcept manifest.validate
    return manifest
  else throw capacityExceeded

/-- `slice::chunks`: consecutive pieces of one size, the last one possibly shorter. -/
def chunksOf (size : ℕ) (bytes : List UInt8) : List (List UInt8) :=
  (List.range ((bytes.length + size - 1) / size)).map fun index =>
    (bytes.drop (index * size)).take size

structure StagedChunk where
  chunkIndex : UInt32
  cid : String
  offset : UInt64
  storedLen : UInt64
  contentEncoding : String
  bytes : List UInt8

/-- The chunks of a ciphertext.  Index and offset are truncated to their machine types. -/
def chunkCiphertext (ciphertext : List UInt8) : List StagedChunk :=
  (chunksOf fixedChunkSize ciphertext).mapIdx fun index bytes => {
    chunkIndex := .ofNat index
    cid := cidFromBytes d.toEnv bytes
    offset := .ofNat (index * fixedChunkSize)
    storedLen := .ofNat bytes.length
    contentEncoding := "identity"
    bytes }

/-- The reference to a chunk in a manifest. -/
def StagedChunk.ref (chunk : StagedChunk) : ChunkRef where
  chunkIndex := chunk.chunkIndex
  cid := chunk.cid
  offset := chunk.offset
  logicalLen := chunk.storedLen
  storedLen := chunk.storedLen
  contentEncoding := chunk.contentEncoding

def buildManifest (input : Description) (ciphertext : List UInt8) : Dist Manifest :=
  buildManifestFromChunkRefs input ((chunkCiphertext d ciphertext).map (·.ref))
    (.ofNat ciphertext.length)

def signNamespaceRecord (fields : NamespaceMutationFields) : Dist String :=
  if h : fields.canonicalValue.Fits then pure (Base64.encode (d.namespaceToken ⟨fields, h⟩))
  else throw capacityExceeded

/-! ### The key of an object -/

/-- What a key resolves to now. -/
def resolveKey (auth : AuthContext) (tenantId : TenantId) (ns key : String) :
    Dist ResolveResponse :=
  callAlpha (.resolve auth
    { tenantId, ns, path := key, atRevision := none, ifRevision := none })

/-- What a key is bound to, if that can be found out: an error counts as a key that is free. -/
def existingObject (auth : AuthContext) (tenantId : TenantId) (ns key : String) :
    Dist (Option ResolveResponse) := do
  match ← Prog.attempt (resolveKey auth tenantId ns key) with
  | .ok resolved => return if resolved.tombstone then none else some resolved
  | .error _ => return none

/-- The revision an upload overwrites.  The lock is only looked at if the key is known to be
bound. -/
def overwrittenRevision (auth : AuthContext) (tenantId : TenantId) (bucket : BucketRecord)
    (key : String) : Dist (Option UInt64) := do
  match ← existingObject auth tenantId bucket.ns key with
  | none => return none
  | some resolved => do
    ensureObjectMutationUnlocked tenantId bucket.bucket key false auth
    return some (.ofNat resolved.revision)

/-- Go on with the answer of a call, an object that does not resolve being missing. -/
def orObjectError {α : Type} (x : Dist α) : Dist α := do
  match ← Prog.attempt x with
  | .ok a => return a
  | .error error => throw (mapObjectError error)

/-- The bind that the commit of an upload makes. -/
def atomicBindFor (tenantId : TenantId) (ns key manifestCid : String)
    (ifRevision : Option UInt64) (metadata : Metadata) : Dist AtomicBindRequest := do
  let issuedAtMs ← nowMs
  let signedRecordB64 ← signNamespaceRecord d {
    version := 1
    tenantId
    ns
    path := key
    kind := .bind
    targetCid := some manifestCid
    ifRevision
    ttlMs := none
    metadata
    issuedAtMs := .ofNat issuedAtMs }
  return { ns, path := key, ifRevision, metadata, ttlMs := none, signedRecordB64 }

/-! ### Uploads -/

/-- The loop of `put_object` over the chunks. -/
def putChunks (auth : AuthContext) (tenantId : TenantId) (sessionId : String)
    (chunks : List StagedChunk) : Dist Unit :=
  forM chunks fun chunk => do
    let _ ← callAlpha (.putChunk auth {
      tenantId
      sessionId
      chunkIndex := chunk.chunkIndex
      chunkCid := chunk.cid
      chunkOffset := chunk.offset
      chunkLength := chunk.storedLen } chunk.bytes)

/-- A storage class that is blank is the default one. -/
def orDefaultStorageClass (storageClass : String) : String :=
  if trimIsEmpty storageClass then defaultStorageClass else storageClass

def validateCiphertextManifestInput (request : PutObjectRequest) (ciphertext : List UInt8) :
    Except ApiError Unit := do
  if ciphertext = [] then
    throw ⟨.validation, "unsupported_plaintext_mode", "ciphertext object body must be non-empty"⟩
  if !request.payloadPlaintext ∧ request.wrappedObjectKeys = [] then
    throw ⟨.unsupported, "unsupported_plaintext_mode",
      "ciphertext object uploads require wrapped object keys"⟩

/-- The description a request for an upload gives. -/
def PutObjectRequest.description (request : PutObjectRequest) : Description where
  tenantId := request.tenantId
  contentType := request.contentType
  encryptionProfileId := request.encryptionProfileId
  keyPolicyId := request.keyPolicyId
  metadataVisibility := request.metadataVisibility
  contentEncryptionSuite := request.contentEncryptionSuite
  keyWrappingSuite := request.keyWrappingSuite
  wrappedObjectKeys := request.wrappedObjectKeys
  serverVisibleMetadata := request.serverVisibleMetadata
  encryptedClientMetadata := request.encryptedClientMetadata

/-- The wrapped keys of an upload, with one for the trusted edge. -/
def withEdgeKey (request : PutObjectRequest) (objectKey : List UInt8) :
    Dist (List WrappedObjectKeyRecord) := do
  if request.wrappedObjectKeys.any (·.recipientKeyId == trustedEdgeRecipientKeyId) then
    return request.wrappedObjectKeys
  else
    let n ← draw
    let wrapped ← ofCrypto (d.wrapObjectKeyForRecipient n request.tenantId
      trustedEdgeRecipientKeyId objectKey) "failed to wrap trusted-edge object data key"
    return request.wrappedObjectKeys ++ [wrapped]

/-- The ciphertext of an upload and its description.  Plaintext is encrypted for the trusted
edge. -/
def effectiveUpload (request : PutObjectRequest) (payload : List UInt8) :
    Dist (List UInt8 × Description) := do
  if !request.payloadPlaintext then return (payload, request.description)
  else
    let n ← draw
    let objectKey := d.generateObjectDataKey n
    let n ← draw
    let (ciphertext, nonceB64) ← ofCrypto (d.encryptClientChunk n objectKey payload)
      "failed to encrypt trusted-edge plaintext payload"
    let wrappedObjectKeys ← withEdgeKey d request objectKey
    return (ciphertext, { request.description with
      wrappedObjectKeys
      serverVisibleMetadata :=
        request.serverVisibleMetadata.insert "hsp-trusted-edge-nonce" nonceB64
      contentEncryptionSuite :=
        if trimIsEmpty request.contentEncryptionSuite then "XChaCha20-Poly1305"
        else request.contentEncryptionSuite
      keyWrappingSuite :=
        if trimIsEmpty request.keyWrappingSuite then "HPKE/X25519"
        else request.keyWrappingSuite })

/-- The request that announces an upload. -/
def Description.putInitRequest (input : Description) (manifest : Manifest)
    (idempotencyKey storageClass : String) (atomicBind : AtomicBindRequest) : PutInitRequest where
  tenantId := input.tenantId
  manifest := manifest
  idempotencyKey := idempotencyKey
  encryptionProfileId := input.encryptionProfileId
  keyPolicyId := input.keyPolicyId
  metadataVisibility := input.metadataVisibility
  storageClass := storageClass
  atomicBind := some atomicBind

/-- The part of `put_object` after its checks: the ciphertext is announced, delivered and
committed. -/
def uploadObject (auth : AuthContext) (request : PutObjectRequest) (bucket : BucketRecord)
    (key : String) (ciphertext : List UInt8) (input : Description) : Dist PutObjectResponse := do
  let ifRevision ← overwrittenRevision auth request.tenantId bucket key
  let manifest ← buildManifest d input ciphertext
  let manifestCid := manifest.manifestCid d.toEnv
  let atomicBind ← atomicBindFor d request.tenantId bucket.ns key manifestCid ifRevision
    input.serverVisibleMetadata
  let init ← callAlpha (.putInit auth (input.putInitRequest manifest request.idempotencyKey
    (orDefaultStorageClass request.storageClass) atomicBind))
  putChunks auth request.tenantId init.sessionId (chunkCiphertext d ciphertext)
  let committed ← callAlpha (.putCommit auth {
    tenantId := request.tenantId
    sessionId := init.sessionId
    manifestCid
    idempotencyKey := request.idempotencyKey })
  return {
    bucket := bucket.bucket
    key
    objectCid := committed.objectCid
    manifestCid
    etag := committed.objectCid
    eventSeq := committed.eventSeq }

def putObject (auth : AuthContext) (request : PutObjectRequest) (payload : List UInt8) :
    Dist PutObjectResponse := do
  ofExcept (validateAccessProfile d request.accessProfile request.payloadPlaintext)
  let bucket ← requireBucket request.tenantId request.bucket
  let key ← ofExcept (canonicalObjectKeyName request.key)
  ofExcept (ensureBucketMutationScopeFor auth request.tenantId (some bucket.bucket) (some key))
  let (ciphertext, input) ← effectiveUpload d request payload
  ofExcept (validateCiphertextManifestInput request ciphertext)
  uploadObject d auth request bucket key ciphertext input

/-! ### Reads -/

/-- `ObjectSelector::namespace`. -/
def keySelector (ns key : String) : ObjectSelector := ⟨.namespace, none, some ns, some key⟩

/-- `ObjectSelector::cid`. -/
def cidSelector (cid : String) : ObjectSelector := ⟨.cid, some cid, none, none⟩

/-- The manifest of a manifest-only answer. -/
def includedManifest (response : GetResponse) : Except ApiError Manifest :=
  match response.meta.manifest with
  | some manifest => .ok manifest
  | none =>
    .error ⟨.storage, "manifest_missing_from_response",
      "manifest-only read did not include a manifest"⟩

/-- A read of the manifest alone. -/
def manifestOnly (tenantId : TenantId) (selector : ObjectSelector) : GetRequest where
  tenantId := tenantId
  selector := selector
  preference := some .manifestOnly
  range := none

/-- The head of an object, from a manifest-only answer. -/
def headResponse (bucket key : String) (response : GetResponse) (manifest : Manifest) :
    HeadObjectResponse where
  «exists» := response.meta.exists
  deleted := response.meta.deleted
  cid := response.meta.cid
  bucket := bucket
  key := key
  objectCid := response.meta.objectCid
  manifestCid := response.meta.manifestCid
  integrityHash := response.meta.integrityHash
  etag := response.meta.objectCid
  sizeBytes := response.meta.sizeBytes
  ciphertextSizeBytes := response.meta.ciphertextSizeBytes
  contentLength := response.meta.storedSize
  contentType := response.meta.contentType
  lastModifiedMs := manifest.createdAtMs
  encryptionProfileId := response.meta.encryptionProfileId
  keyPolicyId := response.meta.keyPolicyId
  serverVisibleMetadata := response.meta.serverVisibleMetadata
  encryptedClientMetadataRedacted := response.meta.encryptedClientMetadataRedacted
  metadataVisibility := response.meta.metadataVisibility

def headObject (auth : AuthContext) (request : HeadObjectRequest) : Dist HeadObjectResponse := do
  let bucket ← requireBucket request.tenantId request.bucket
  let key ← ofExcept (canonicalObjectKeyName request.key)
  ensureBucketReadScopeFor auth request.tenantId bucket.bucket (some key)
  let response ← orObjectError
    (callAlpha (.get auth (manifestOnly request.tenantId (keySelector bucket.ns key))))
  let manifest ← ofExcept (includedManifest response)
  return headResponse bucket.bucket key response manifest

/-- The binding a read by identifier has to prove, if it names one. -/
def cidBinding (auth : AuthContext) (request : GetObjectRequest) (cid : String) :
    Dist (Option (BucketRecord × String)) :=
  match request.bucket, request.key with
  | some bucketName, some key => do
    let bucket ← requireBucket request.tenantId bucketName
    let key ← ofExcept (canonicalObjectKeyName key)
    ensureBucketReadScopeFor auth request.tenantId bucket.bucket (some key)
    let resolved ← orObjectError (resolveKey auth request.tenantId bucket.ns key)
    rejectIf (resolved.targetCid ≠ some cid ∧ resolved.manifestCid ≠ some cid)
      ⟨.policy, "cid_binding_mismatch", "requested CID is not bound to the scoped bucket/key"⟩
    return some (bucket, key)
  | none, none => do
    ofExcept (ensureUnscopedCidReadScope auth request.tenantId)
    return none
  | _, _ =>
    throw ⟨.validation, "missing_cid_binding",
      "CID reads must provide both bucket and key when a binding is supplied"⟩

/-- The head of a read, the selector its body is read with, and whether the answer is
immutable. -/
def readHead (auth : AuthContext) (request : GetObjectRequest) :
    Dist (HeadObjectResponse × ObjectSelector × Bool) :=
  match request.cid with
  | some cid => do
    let binding ← cidBinding auth request cid
    -- The binding is proved, and then the key is resolved again.
    let selector := binding.elim (cidSelector cid) fun (bucket, key) => keySelector bucket.ns key
    let response ← callAlpha (.get auth (manifestOnly request.tenantId selector))
    let manifest ← ofExcept (includedManifest response)
    return (headResponse (binding.elim "" (·.1.bucket)) (binding.elim cid (·.2)) response manifest,
      selector, true)
  | none => do
    let bucketName ← match request.bucket with
      | some bucketName => pure bucketName
      | none =>
        throw ⟨.validation, "missing_bucket", "bucket is required when cid is not provided"⟩
    let key ← match request.key with
      | some key => pure key
      | none =>
        throw ⟨.validation, "missing_object_key", "object key is required when cid is not provided"⟩
    let head ← headObject auth ⟨request.tenantId, bucketName, key⟩
    let bucket ← requireBucket request.tenantId bucketName
    let key ← ofExcept (canonicalObjectKeyName key)
    return (head, keySelector bucket.ns key, false)

def checkPreconditions (request : GetObjectRequest) (etag : String) : Except ApiError Unit := do
  if request.ifMatch.any (· ≠ etag) then
    throw ⟨.conflict, "precondition_failed",
      "If-Match does not match the current ciphertext object identity"⟩
  if request.ifNoneMatch = some etag then
    throw ⟨.conflict, "not_modified",
      "If-None-Match matches the current ciphertext object identity"⟩

/-- The plaintext of a body, by what the manifest says about its key. -/
def openBody (tenantId : TenantId) (manifest : Manifest) (body : List UInt8) :
    Dist (List UInt8) := do
  match manifest.encryptionDescriptor.serverVisibleMetadata["hsp-trusted-edge-nonce"]? with
  | none =>
    throw ⟨.unsupported, "unsupported_plaintext_mode",
      "trusted-edge nonce metadata is missing for this object"⟩
  | some nonceB64 =>
    match manifest.encryptionDescriptor.wrappedObjectKeys.find?
        (·.recipientKeyId == trustedEdgeRecipientKeyId) with
    | none =>
      throw ⟨.unsupported, "unsupported_plaintext_mode",
        "trusted-edge wrapped object key is missing"⟩
    | some wrappedKey => do
      let objectKey ← ofCrypto (d.unwrapObjectKeyForRecipient tenantId wrappedKey)
        "failed to unwrap trusted-edge object key"
      ofCrypto (d.decryptClientChunk objectKey nonceB64 body)
        "failed to decrypt trusted-edge object payload"

/-- The manifest of an answer, or else of one more read. -/
def manifestFor (auth : AuthContext) (tenantId : TenantId) (selector : ObjectSelector)
    (response : GetResponse) : Dist Manifest :=
  match response.meta.manifest with
  | some manifest => pure manifest
  | none => do
    let response ← callAlpha (.get auth (manifestOnly tenantId selector))
    ofExcept (includedManifest response)

/-- A read of the body as a stream of chunks. -/
def bodyRequest (request : GetObjectRequest) (selector : ObjectSelector) : GetRequest where
  tenantId := request.tenantId
  selector := selector
  preference := some .chunkStream
  range := request.range

/-- The bytes of an answer, one chunk after the other. -/
def bodyOf (response : GetResponse) : List UInt8 := response.chunks.flatMap (·.bytes)

/-- The answer to a read of plaintext. -/
def plaintextResponse (auth : AuthContext) (request : GetObjectRequest)
    (head : HeadObjectResponse) (selector : ObjectSelector) (immutable : Bool)
    (response : GetResponse) : Dist GetObjectResponse := do
  rejectIf request.range.isSome
    ⟨.unsupported, "unsupported_preference",
      "trusted-edge plaintext mode does not support range reads"⟩
  let manifest ← manifestFor auth request.tenantId selector response
  let body ← openBody d request.tenantId manifest (bodyOf response)
  return {
    head := { head with contentLength := .ofNat body.length }
    body
    immutable
    cacheControl := "private, no-store"
    contentRange := none }

/-- The answer to a read of ciphertext. -/
def ciphertextResponse (request : GetObjectRequest) (head : HeadObjectResponse)
    (immutable : Bool) (response : GetResponse) : GetObjectResponse where
  head := head
  body := bodyOf response
  immutable := immutable
  cacheControl :=
    if immutable then "public, max-age=" ++ toString d.immutableCidTtlSec ++ ", immutable"
    else "private, max-age=" ++ toString d.namespaceTtlSec
  contentRange := request.range.map fun range =>
    "bytes " ++ toString range.start.toNat ++ "-" ++ toString range.end.toNat ++ "/" ++
      toString head.contentLength.toNat

/-- The part of `get_object` after the head: the body is read in a call of its own. -/
def readBody (auth : AuthContext) (request : GetObjectRequest) (head : HeadObjectResponse)
    (selector : ObjectSelector) (immutable : Bool) : Dist GetObjectResponse := do
  ofExcept (checkPreconditions request head.etag)
  let response ← callAlpha (.get auth (bodyRequest request selector))
  if request.preferPlaintext then
    plaintextResponse d auth request head selector immutable response
  else return ciphertextResponse d request head immutable response

def getObject (auth : AuthContext) (request : GetObjectRequest) : Dist GetObjectResponse := do
  ofExcept (validateAccessProfile d request.accessProfile request.preferPlaintext)
  ofExcept (ensureTenantMatches auth request.tenantId)
  let (head, selector, immutable) ← readHead auth request
  readBody d auth request head selector immutable

/-- The loop of `list_objects` over the listed keys. -/
def headItems (auth : AuthContext) (request : ListObjectsRequest) :
    List ListItem → Dist (List ObjectListItem)
  | [] => pure []
  | item :: rest => do
    let head ← headObject auth ⟨request.tenantId, request.bucket, item.path⟩
    let items ← headItems auth request rest
    return {
      key := item.path
      etag := head.etag
      contentLength := head.contentLength
      contentType := head.contentType
      lastModifiedMs := head.lastModifiedMs
      serverVisibleMetadata := head.serverVisibleMetadata } :: items

/-- The canonical form of a prefix that may be absent. -/
def canonicalPrefix : Option String → Except ApiError (Option String)
  | none => .ok none
  | some pathPrefix => some <$> canonicalObjectKeyName pathPrefix

def listObjects (auth : AuthContext) (request : ListObjectsRequest) :
    Dist ListObjectsResponse := do
  let bucket ← requireBucket request.tenantId request.bucket
  let pathPrefix ← ofExcept (canonicalPrefix request.pathPrefix)
  ensureBucketReadScopeFor auth request.tenantId bucket.bucket pathPrefix
  let listed ← callAlpha (.list auth {
    tenantId := request.tenantId
    ns := bucket.ns
    pathPrefix
    cursor := request.continuationToken
    limit := request.limit
    includeTombstones := false })
  let items ← headItems auth request listed.items
  return {
    bucket := request.bucket
    items
    nextContinuationToken := listed.nextCursor
    isTruncated := listed.truncated }

/-! ### Deleting and copying -/

def deleteObject (auth : AuthContext) (request : DeleteObjectRequest) :
    Dist DeleteObjectResponse := do
  let bucket ← requireBucket request.tenantId request.bucket
  let key ← ofExcept (canonicalObjectKeyName request.key)
  ofExcept (ensureBucketMutationScopeFor auth request.tenantId (some bucket.bucket) (some key))
  let resolved ← orObjectError (resolveKey auth request.tenantId bucket.ns key)
  rejectIf resolved.tombstone ⟨.notFound, "object_not_found", "object is already tombstoned"⟩
  -- The lock is looked up under the bucket name as it was sent.
  ensureObjectMutationUnlocked request.tenantId request.bucket key true auth
  let ifRevision : UInt64 := .ofNat resolved.revision
  let issuedAtMs ← nowMs
  let signedRecordB64 ← signNamespaceRecord d {
    version := 1
    tenantId := request.tenantId
    ns := bucket.ns
    path := key
    kind := .unbind
    targetCid := none
    ifRevision := some ifRevision
    ttlMs := none
    metadata := ∅
    issuedAtMs := .ofNat issuedAtMs }
  let unbound ← callAlpha (.unbind auth {
    tenantId := request.tenantId
    ns := bucket.ns
    path := key
    ifRevision
    hardDelete := false
    idempotencyKey := request.idempotencyKey
    signedRecordB64 })
  return {
    bucket := request.bucket
    key
    tombstone := unbound.tombstone
    revision := unbound.revision
    recordCid := unbound.recordCid
    eventSeq := unbound.eventSeq }

/-- The end of `copy_object`: the key is bound to the object. -/
def bindCopy (auth : AuthContext) (request : CopyObjectRequest) (ns key targetCid : String)
    (ifRevision : Option UInt64) : Dist CopyObjectResponse := do
  let issuedAtMs ← nowMs
  let signedRecordB64 ← signNamespaceRecord d {
    version := 1
    tenantId := request.tenantId
    ns
    path := key
    kind := .bind
    targetCid := some targetCid
    ifRevision
    ttlMs := none
    metadata := ∅
    issuedAtMs := .ofNat issuedAtMs }
  let response ← callAlpha (.bind auth {
    tenantId := request.tenantId
    ns
    path := key
    targetCid
    ifRevision
    ifAbsent := ifRevision.isNone
    metadata := ∅
    ttlMs := none
    idempotencyKey := request.idempotencyKey
    signedRecordB64 })
  return {
    bucket := request.destinationBucket
    key
    objectCid := targetCid
    revision := response.revision
    recordCid := response.recordCid
    eventSeq := response.eventSeq }

def copyObject (auth : AuthContext) (request : CopyObjectRequest) : Dist CopyObjectResponse := do
  let sourceBucket ← requireBucket request.tenantId request.sourceBucket
  let destinationBucket ← requireBucket request.tenantId request.destinationBucket
  let sourceKey ← ofExcept (canonicalObjectKeyName request.sourceKey)
  let destinationKey ← ofExcept (canonicalObjectKeyName request.destinationKey)
  ensureBucketReadScopeFor auth request.tenantId sourceBucket.bucket (some sourceKey)
  ofExcept (ensureBucketMutationScopeFor auth request.tenantId (some destinationBucket.bucket)
    (some destinationKey))
  let source ← orObjectError (resolveKey auth request.tenantId sourceBucket.ns sourceKey)
  rejectIf source.tombstone ⟨.notFound, "object_not_found", "source object is tombstoned"⟩
  let existing ← existingObject auth request.tenantId destinationBucket.ns destinationKey
  ensureObjectMutationUnlocked request.tenantId destinationBucket.bucket destinationKey false auth
  let targetCid ← orNotFound source.targetCid "object_not_found"
    "source object does not resolve to a target CID"
  bindCopy d auth request destinationBucket.ns destinationKey targetCid
    (existing.map fun resolved => .ofNat resolved.revision)

/-! ### Replication -/

/-- `u64::saturating_add(1)`. -/
def satSucc (n : ℕ) : ℕ := satAdd n 1

/-- The loop of `run_replication_once`: how many objects were copied, how many were not, and the
code of the last error. -/
def replicateItems (auth : AuthContext) (tenantId : TenantId) (config : ReplicationConfig) :
    List ObjectListItem → ℕ × ℕ × Option String → Dist (ℕ × ℕ × Option String)
  | [], counts => pure counts
  | object :: rest, (copied, failed, lastError) => do
    let now ← nowMs
    let result ← Prog.attempt (copyObject d auth {
      tenantId
      sourceBucket := config.sourceBucket
      sourceKey := object.key
      destinationBucket := config.destinationBucket
      destinationKey := object.key
      idempotencyKey := "replication-" ++ cidFromBytes d.toEnv (utf8 (config.sourceBucket ++ ":" ++
        config.destinationBucket ++ ":" ++ object.key ++ ":" ++ toString now)) })
    match result with
    | .error error =>
      replicateItems auth tenantId config rest (copied, satSucc failed, some error.code)
    | .ok _ => replicateItems auth tenantId config rest (satSucc copied, failed, lastError)

/-- The objects of a bucket that is replicated, if replication is enabled, are copied. -/
def replicate (auth : AuthContext) (tenantId : TenantId) (config : ReplicationConfig) :
    Dist (ℕ × ℕ × Option String) := do
  if config.enabled then
    let listed ← listObjects auth {
      tenantId
      bucket := config.sourceBucket
      pathPrefix := config.pathPrefix
      continuationToken := none
      limit := some 10000 }
    replicateItems d auth tenantId config listed.items (0, 0, none)
  else return (0, 0, some "replication_disabled")

def runReplicationOnce (auth : AuthContext) (tenantId : TenantId) (sourceBucket : String) :
    Dist ReplicationStatus := do
  let sourceBucket ← ofExcept (canonicalBucketName sourceBucket)
  ofExcept (ensureBucketMutationScopeFor auth tenantId (some sourceBucket) none)
  let config ← getReplicationConfig auth tenantId sourceBucket
  let (copiedObjects, failedObjects, lastError) ← replicate d auth tenantId config
  let lastRunMs ← nowMs
  let status : ReplicationStatus := {
    tenantId
    sourceBucket := config.sourceBucket
    destinationBucket := config.destinationBucket
    copiedObjects
    failedObjects
    lastRunMs
    lastError }
  writeEncryptedJson (replicationStatusSlot tenantId sourceBucket) status
  return status

end Hsp.Distribution
