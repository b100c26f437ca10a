import Hsp.Distribution.Objects

/-!
# Multipart uploads

A large object is uploaded in parts, which are kept in the store until the upload is completed.
Completion reads the listed parts twice: once to build the manifest, once to deliver the chunks.
The chunks are cut across the borders of the parts.
-/

namespace Hsp.Distribution

variable (d : Deployment)

/-! ### Cutting a stream into chunks -/

section Cutting

variable {m : Type → Type} [Monad m] {σ : Type} (emit : List UInt8 → σ → m σ)

/-- The loop that fills a chunk and emits it when it is full.  Every round but the last takes a
byte, so that as many rounds as there are bytes are enough. -/
def fillChunks : (rounds : ℕ) → (remaining pendingChunk : List UInt8) → σ → m (List UInt8 × σ)
  | 0, _, pendingChunk, state => pure (pendingChunk, state)
  | rounds + 1, remaining, pendingChunk, state =>
    if remaining = [] then pure (pendingChunk, state)
    else
      let take := min (fixedChunkSize - pendingChunk.length) remaining.length
      let pendingChunk := pendingChunk ++ remaining.take take
      let remaining := remaining.drop take
      if pendingChunk.length = fixedChunkSize then do
        let state ← emit pendingChunk state
        fillChunks rounds remaining [] state
      else fillChunks rounds remaining pendingChunk state

/-- The last chunk, unless nothing is left. -/
def flushChunk (pendingChunk : List UInt8) (state : σ) : m σ :=
  if pendingChunk = [] then pure state else emit pendingChunk state

end Cutting

/-- Where the next chunk goes. -/
structure ChunkCursor where
  nextChunkIndex : UInt32
  nextChunkOffset : UInt64

def ChunkCursor.start : ChunkCursor := ⟨0, 0⟩

def advanceFixedChunkCursor (bytes : List UInt8) (cursor : ChunkCursor) :
    Except ApiError ChunkCursor := do
  if cursor.nextChunkIndex.toNat + 1 ≥ 2 ^ 32 then
    throw ⟨.validation, "object_too_large", "multipart object has too many chunks"⟩
  if cursor.nextChunkOffset.toNat + bytes.length ≥ 2 ^ 64 then
    throw ⟨.validation, "object_too_large", "multipart object size overflows supported range"⟩
  return ⟨cursor.nextChunkIndex + 1, cursor.nextChunkOffset + .ofNat bytes.length⟩

def fixedChunkRef (chunkIndex : UInt32) (offset : UInt64) (bytes : List UInt8) : ChunkRef where
  chunkIndex := chunkIndex
  cid := cidFromBytes d.toEnv bytes
  offset := offset
  logicalLen := .ofNat bytes.length
  storedLen := .ofNat bytes.length
  contentEncoding := "identity"

/-- The chunk at a cursor. -/
def ChunkCursor.ref (cursor : ChunkCursor) (bytes : List UInt8) : ChunkRef :=
  fixedChunkRef d cursor.nextChunkIndex cursor.nextChunkOffset bytes

def appendFixedChunkRef (bytes : List UInt8) :
    List ChunkRef × ChunkCursor → Except ApiError (List ChunkRef × ChunkCursor)
  | (chunkRefs, cursor) => do
    let next ← advanceFixedChunkCursor bytes cursor
    return (chunkRefs ++ [cursor.ref d bytes], next)

def collectFixedChunkRefs (bytes pendingChunk : List UInt8)
    (state : List ChunkRef × ChunkCursor) :
    Except ApiError (List UInt8 × List ChunkRef × ChunkCursor) :=
  fillChunks (appendFixedChunkRef d) bytes.length bytes pendingChunk state

def flushFixedChunkRef (pendingChunk : List UInt8) (state : List ChunkRef × ChunkCursor) :
    Except ApiError (List ChunkRef × ChunkCursor) :=
  flushChunk (appendFixedChunkRef d) pendingChunk state

section Upload

variable (auth : AuthContext) (tenantId : TenantId) (sessionId : String)

/-- The chunk at a cursor is delivered. -/
def putFixedChunk (bytes : List UInt8) (cursor : ChunkCursor) : Dist ChunkCursor := do
  let ref := cursor.ref d bytes
  let _ ← callAlpha (.putChunk auth {
    tenantId
    sessionId
    chunkIndex := ref.chunkIndex
    chunkCid := ref.cid
    chunkOffset := ref.offset
    chunkLength := ref.storedLen } bytes)
  ofExcept (advanceFixedChunkCursor bytes cursor)

def uploadFixedChunks (bytes pendingChunk : List UInt8) (cursor : ChunkCursor) :
    Dist (List UInt8 × ChunkCursor) :=
  fillChunks (putFixedChunk d auth tenantId sessionId) bytes.length bytes pendingChunk cursor

def flushFixedChunkUpload (pendingChunk : List UInt8) (cursor : ChunkCursor) :
    Dist ChunkCursor :=
  flushChunk (putFixedChunk d auth tenantId sessionId) pendingChunk cursor

end Upload

/-! ### Sessions and parts -/

/-- An entry of the multipart store that is read at the wrong type.  The parser adds a position to
the text, which is left out. -/
def unreadableEntry (field : String) : ApiError :=
  ⟨.storage, "json_deserialize_failed", "missing field `" ++ field ++ "`"⟩

def multipartSession (tenantId : TenantId) (uploadId : String) : Dist MultipartSessionRecord := do
  match ← readEncryptedJson (multipartSessionSlot tenantId uploadId) with
  | some (.session record) => return record
  | some (.part _) => throw (unreadableEntry "tenant_id")
  | none => throw ⟨.notFound, "multipart_not_found", "multipart upload session not found"⟩

def multipartConflict (message : String) : ApiError := ⟨.conflict, "multipart_conflict", message⟩

/-- The metadata of a part, which must be that of the listed part. -/
def multipartPartMeta (tenantId : TenantId) (uploadId : String) (part : CompletedMultipartPart) :
    Dist MultipartPartRecord := do
  match ← readEncryptedJson (partMetaSlot tenantId uploadId part.partNumber) with
  | none => throw ⟨.notFound, "multipart_not_found", "multipart part metadata not found"⟩
  | some (.session _) => throw (unreadableEntry "part_number")
  | some (.part record) => do
    rejectIf (record.uploadId ≠ uploadId ∨ record.partNumber ≠ part.partNumber)
      (multipartConflict "multipart part metadata does not match the requested upload session")
    rejectIf (record.etag ≠ part.etag)
      (multipartConflict "multipart part ETag does not match stored ciphertext part")
    return record

def multipartPartCiphertext (tenantId : TenantId) (uploadId : String)
    (part : CompletedMultipartPart) : Dist (List UInt8) := do
  let record ← multipartPartMeta tenantId uploadId part
  match ← readEncryptedJson (multipartPartSlot tenantId uploadId part.partNumber) with
  | none => throw ⟨.notFound, "multipart_not_found", "multipart part ciphertext not found"⟩
  | some bytes => do
    rejectIf (record.length ≠ .ofNat bytes.length ∨ cidFromBytes d.toEnv bytes ≠ part.etag)
      (multipartConflict "multipart part ciphertext does not match stored metadata")
    return bytes

/-- The numbers of a `BTreeSet`, in order. -/
def numberSet (numbers : List UInt32) : List UInt32 := numbers.dedup.insertionSort (· ≤ ·)

/-- The loop of `cleanup_multipart` over the parts. -/
def deleteParts (tenantId : TenantId) (uploadId : String) : List UInt32 → Dist Unit
  | [] => pure ()
  | partNumber :: rest => do
    deleteStoreKey (multipartPartSlot tenantId uploadId partNumber)
    deleteStoreKey (partMetaSlot tenantId uploadId partNumber)
    deleteParts tenantId uploadId rest

def cleanupMultipart (tenantId : TenantId) (uploadId : String) (partNumbers : List UInt32) :
    Dist Unit := do
  deleteParts tenantId uploadId (numberSet partNumbers)
  deleteStoreKey (multipartSessionSlot tenantId uploadId)

/-! ### The operations -/

def createMultipartUpload (auth : AuthContext) (request : CreateMultipartUploadRequest) :
    Dist CreateMultipartUploadResponse := do
  ofExcept (validateAccessProfile d request.accessProfile request.payloadPlaintext)
  let bucket ← requireBucket request.tenantId request.bucket
  let key ← ofExcept (canonicalObjectKeyName request.key)
  ofExcept (ensureBucketMutationScopeFor auth request.tenantId (some bucket.bucket) (some key))
  rejectIf (!request.payloadPlaintext ∧ request.wrappedObjectKeys = [])
    ⟨.unsupported, "unsupported_plaintext_mode",
      "ciphertext object uploads require wrapped object keys"⟩
  let now ← nowMs
  let uploadId := "multipart-" ++ cidFromBytes d.toEnv
    (utf8 (bucket.bucket ++ ":" ++ key ++ ":" ++ toString now))
  let initiatedAtMs ← nowMs
  writeEncryptedJson (multipartSessionSlot request.tenantId uploadId) (.session {
    uploadId
    tenantId := request.tenantId
    bucket := bucket.bucket
    key
    accessProfile := request.accessProfile
    payloadPlaintext := request.payloadPlaintext
    contentType := request.contentType
    encryptionProfileId := request.encryptionProfileId
    keyPolicyId := request.keyPolicyId
    metadataVisibility := request.metadataVisibility
    contentEncryptionSuite := request.contentEncryptionSuite
    keyWrappingSuite := request.keyWrappingSuite
    wrappedObjectKeys := request.wrappedObjectKeys
    serverVisibleMetadata := request.serverVisibleMetadata
    encryptedClientMetadata := request.encryptedClientMetadata
    storageClass := orDefaultStorageClass request.storageClass
    initiatedAtMs
    idempotencyKey := request.idempotencyKey
    completed := false })
  return { bucket := bucket.bucket, key := request.key, uploadId }

/-- The session of an upload the caller may change. -/
def changeUpload (auth : AuthContext) (tenantId : TenantId) (uploadId : String) :
    Dist MultipartSessionRecord := do
  ofExcept (ensureTenantMatches auth tenantId)
  let session ← multipartSession tenantId uploadId
  ofExcept (ensureBucketMutationScopeFor auth tenantId (some session.bucket) (some session.key))
  return session

def alreadyCompleted : ApiError := multipartConflict "multipart upload is already completed"

def uploadPart (auth : AuthContext) (request : UploadPartRequest) (ciphertextPart : List UInt8) :
    Dist UploadPartResponse := do
  let session ← changeUpload auth request.tenantId request.uploadId
  rejectIf session.completed alreadyCompleted
  let etag := cidFromBytes d.toEnv ciphertextPart
  let length : UInt64 := .ofNat ciphertextPart.length
  -- The bytes of the part and its metadata are two entries.
  writeEncryptedJson (multipartPartSlot request.tenantId request.uploadId request.partNumber)
    ciphertextPart
  let createdAtMs ← nowMs
  writeEncryptedJson (partMetaSlot request.tenantId request.uploadId request.partNumber) (.part {
    uploadId := request.uploadId, partNumber := request.partNumber, etag, length, createdAtMs })
  return { uploadId := request.uploadId, partNumber := request.partNumber, etag, length }

/-- The checks of a completion that need no parts. -/
def checkCompletion (session : MultipartSessionRecord) (parts : List CompletedMultipartPart) :
    Except ApiError Unit := do
  if session.completed then
    throw alreadyCompleted
  if parts = [] then
    throw ⟨.validation, "multipart_not_found",
      "complete multipart requires at least one uploaded part"⟩
  if session.payloadPlaintext then
    throw ⟨.unsupported, "unsupported_plaintext_mode",
      "multipart trusted-edge plaintext uploads require streaming encryption support"⟩

/-- The first pass over the parts: they are listed in ascending order, and their bytes are cut into
chunks. -/
def collectParts (tenantId : TenantId) (uploadId : String) :
    List CompletedMultipartPart → Option UInt32 → List UInt8 × List ChunkRef × ChunkCursor →
      Dist (List UInt8 × List ChunkRef × ChunkCursor)
  | [], _, state => pure state
  | part :: rest, previous, (pendingChunk, state) => do
    rejectIf (previous.any (part.partNumber ≤ ·))
      ⟨.conflict, "invalid_part_order",
        "complete multipart parts must be listed in strictly ascending part order"⟩
    let bytes ← multipartPartCiphertext d tenantId uploadId part
    let state ← ofExcept (collectFixedChunkRefs d bytes pendingChunk state)
    collectParts tenantId uploadId rest (some part.partNumber) state

/-- The chunks of the listed parts, and where the next one would go. -/
def collectChunkRefs (tenantId : TenantId) (uploadId : String)
    (parts : List CompletedMultipartPart) : Dist (List ChunkRef × ChunkCursor) := do
  let (pendingChunk, state) ← collectParts d tenantId uploadId parts none ([], [], .start)
  let (chunkRefs, cursor) ← ofExcept (flushFixedChunkRef d pendingChunk state)
  rejectIf (chunkRefs = [])
    ⟨.validation, "zero_sized_manifest", "complete multipart produced an empty object"⟩
  return (chunkRefs, cursor)

/-- The second pass over the parts: their bytes are read again and delivered. -/
def uploadParts (auth : AuthContext) (tenantId : TenantId) (uploadId sessionId : String) :
    List CompletedMultipartPart → List UInt8 × ChunkCursor → Dist (List UInt8 × ChunkCursor)
  | [], state => pure state
  | part :: rest, (pendingChunk, cursor) => do
    let bytes ← multipartPartCiphertext d tenantId uploadId part
    let state ← uploadFixedChunks d auth tenantId sessionId bytes pendingChunk cursor
    uploadParts auth tenantId uploadId sessionId rest state

/-- The description a session gives. -/
def MultipartSessionRecord.description (session : MultipartSessionRecord) (tenantId : TenantId) :
    Description where
  tenantId := tenantId
  contentType := session.contentType
  encryptionProfileId := session.encryptionProfileId
  keyPolicyId := session.keyPolicyId
  metadataVisibility := session.metadataVisibility
  contentEncryptionSuite := session.contentEncryptionSuite
  keyWrappingSuite := session.keyWrappingSuite
  wrappedObjectKeys := session.wrappedObjectKeys
  serverVisibleMetadata := session.serverVisibleMetadata
  encryptedClientMetadata := session.encryptedClientMetadata

/-- The manifest of a completion, and its upload announced. -/
def announceCompletion (auth : AuthContext) (request : CompleteMultipartUploadRequest)
    (session : MultipartSessionRecord) (bucket : BucketRecord) (chunkRefs : List ChunkRef)
    (sizeBytes : UInt64) : Dist (String × PutInitResponse) := do
  let ifRevision ← overwrittenRevision auth request.tenantId bucket session.key
  let input := session.description request.tenantId
  let manifest ← buildManifestFromChunkRefs input chunkRefs sizeBytes
  let manifestCid := manifest.manifestCid d.toEnv
  let atomicBind ← atomicBindFor d request.tenantId bucket.ns session.key manifestCid ifRevision
    session.serverVisibleMetadata
  let init ← callAlpha (.putInit auth (input.putInitRequest manifest
    ("complete-init-" ++ session.idempotencyKey) session.storageClass atomicBind))
  return (manifestCid, init)

/-- The chunks of a completion are delivered, and the upload is committed. -/
def commitCompletion (auth : AuthContext) (request : CompleteMultipartUploadRequest)
    (session : MultipartSessionRecord) (manifestCid sessionId : String) :
    Dist PutCommitResponse := do
  let (pendingChunk, cursor) ← uploadParts d auth request.tenantId request.uploadId sessionId
    request.parts ([], .start)
  let _ ← flushFixedChunkUpload d auth request.tenantId sessionId pendingChunk cursor
  callAlpha (.putCommit auth {
    tenantId := request.tenantId
    sessionId
    manifestCid
    idempotencyKey := "complete-" ++ session.idempotencyKey })

def completeMultipartUpload (auth : AuthContext) (request : CompleteMultipartUploadRequest) :
    Dist PutObjectResponse := do
  let session ← changeUpload auth request.tenantId request.uploadId
  ofExcept (checkCompletion session request.parts)
  let (chunkRefs, cursor) ←
    collectChunkRefs d request.tenantId request.uploadId request.parts
  let bucket ← requireBucket request.tenantId session.bucket
  let (manifestCid, init) ← announceCompletion d auth request session bucket chunkRefs
    cursor.nextChunkOffset
  let committed ← commitCompletion d auth request session manifestCid init.sessionId
  writeEncryptedJson (multipartSessionSlot request.tenantId request.uploadId)
    (.session { session with completed := true })
  cleanupMultipart request.tenantId request.uploadId (request.parts.map (·.partNumber))
  return {
    bucket := bucket.bucket
    key := session.key
    objectCid := committed.objectCid
    manifestCid
    etag := committed.objectCid
    eventSeq := committed.eventSeq }

/-- The numbers of the parts an upload has metadata of. -/
def multipartParts (tenantId : TenantId) (uploadId : String) : Dist (List UInt32) := do
  let entries ← listEncryptedJson .multipartSessions tenantId
  return entries.filterMap fun entry => match entry with
    | .session _ => none
    | .part record => if record.uploadId = uploadId then some record.partNumber else none

def abortMultipartUpload (auth : AuthContext) (request : AbortMultipartUploadRequest) :
    Dist Unit := do
  let _ ← changeUpload auth request.tenantId request.uploadId
  let numbers ← multipartParts request.tenantId request.uploadId
  cleanupMultipart request.tenantId request.uploadId numbers
  deleteStoreKey (multipartSessionSlot request.tenantId request.uploadId)

end Hsp.Distribution
