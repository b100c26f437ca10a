import Hsp.Service.Namespace

/-!
# Uploads

An upload is a session: `PUT_INIT` announces a manifest, `PUT_CHUNK` delivers its chunks and
`PUT_COMMIT` stores the manifest, binding it to a path when the session asks for it.
-/

namespace Hsp

variable (env : Env)

def chunkExists (tenantId : TenantId) (cid : String) : Svc Bool :=
  storeExists (.chunks tenantId cid)

/-! ### PUT_INIT -/

/-- The checks of `put_init` that need no state. -/
def checkPutInit (request : PutInitRequest) : Except ApiError Unit := do
  request.manifest.validate
  if request.manifest.tenantId ≠ request.tenantId then
    throw ⟨.validation, "manifest_tenant_mismatch",
      "manifest tenant_id must match request tenant_id"⟩
  if request.manifest.encryptionDescriptor.keyPolicyId ≠ request.keyPolicyId then
    throw ⟨.validation, "manifest_key_policy_mismatch",
      "manifest encryption descriptor key_policy_id must match PUT_INIT key_policy_id"⟩
  if request.manifest.encryptionDescriptor.encryptionProfileId ≠ request.encryptionProfileId then
    throw ⟨.validation, "manifest_encryption_profile_mismatch",
      "manifest encryption descriptor encryption_profile_id must match PUT_INIT " ++
        "encryption_profile_id"⟩
  if request.manifest.encryptionDescriptor.metadataVisibility ≠ request.metadataVisibility then
    throw ⟨.validation, "manifest_visibility_mismatch",
      "manifest metadata_visibility must match PUT_INIT metadata_visibility"⟩

/-- The indices of the chunks that are not stored yet. -/
def missingChunks (tenantId : TenantId) : List ChunkRef → Svc (List UInt32)
  | [] => pure []
  | chunk :: rest => do
    let present ← chunkExists tenantId chunk.cid
    let missing ← missingChunks tenantId rest
    return if present then missing else chunk.chunkIndex :: missing

/-- The part of `put_init` after the lookup of a stored response. -/
def putInitApply (request : PutInitRequest) : Svc PutInitResponse := do
  let manifestCid := request.manifest.manifestCid env
  let missing ← missingChunks request.tenantId request.manifest.chunkRefs
  -- The clock is read twice, for the creation time and for the deadline.
  let createdAtMs ← nowMs
  let deadlineBase ← nowMs
  let session : UploadSessionRecord := {
    sessionId := "session-" ++ manifestCid
    tenantId := request.tenantId
    manifest := request.manifest
    manifestCid
    idempotencyKey := request.idempotencyKey
    storageClass := request.storageClass
    atomicBind := request.atomicBind
    uploadedChunks := []
    committed := false
    createdAtMs
    uploadDeadlineMs := deadlineBase + 15 * 60 * 1000 }
  writeEncryptedJson (.sessions request.tenantId session.sessionId) session
  let response : PutInitResponse := {
    sessionId := session.sessionId
    missingChunks := missing
    acceptedManifestCid := manifestCid
    uploadDeadlineMs := session.uploadDeadlineMs
    maxParallelChunkStreams := defaultLimits.maxParallelChunkStreams }
  writeEncryptedJson (.idempotency request.tenantId .putInit request.idempotencyKey) ⟨response⟩
  return response

def putInit (auth : AuthContext) (request : PutInitRequest) : Svc PutInitResponse := do
  ofExcept (checkPutInit request)
  let decision ← authorize env auth {
    operation := .putInit
    tenantId := request.tenantId
    subject := request.manifest.manifestCid env
    ns := request.atomicBind.map (·.ns)
    path := request.atomicBind.map (·.path)
    contentSize := some request.manifest.storedSize
    storageClass := some request.storageClass
    keyPolicyId := some request.keyPolicyId
    encryptionProfileId := some request.encryptionProfileId
    metadataVisibility := some request.metadataVisibility
    idempotencyKey := some request.idempotencyKey }
  match ← storedResponse request.tenantId .putInit request.idempotencyKey true decision with
  | some record => return record.response
  | none => putInitApply env request

/-! ### PUT_CHUNK -/

/-- The session a request names. -/
def uploadSession (tenantId : TenantId) (sessionId : String) : Svc UploadSessionRecord := do
  match ← readEncryptedJson (.sessions tenantId sessionId) with
  | some session => pure session
  | none => throw ⟨.notFound, "upload_session_not_found", "upload session not found"⟩

theorem runE_uploadSession_some {env : Env} {t : TenantId} {sessionId : String} {w : World}
    {session : UploadSessionRecord} (h : w.store (.sessions t sessionId) = some session) :
    runE (exec env) (uploadSession t sessionId) w = (.ok session, w) := by
  rw [uploadSession, runE_read_bind, h]
  rfl

theorem runE_uploadSession_none {env : Env} {t : TenantId} {sessionId : String} {w : World}
    (h : w.store (.sessions t sessionId) = none) :
    runE (exec env) (uploadSession t sessionId) w =
      (.error ⟨.notFound, "upload_session_not_found", "upload session not found"⟩, w) := by
  rw [uploadSession, runE_read_bind, h]
  rfl

/-- The checks of `put_chunk` against its session. -/
def checkChunk (session : UploadSessionRecord) (request : PutChunkRequest)
    (ciphertextChunk : List UInt8) : Except ApiError Unit := do
  if session.committed then
    throw ⟨.conflict, "upload_session_already_committed", "upload session is already committed"⟩
  match session.manifest.chunkRefs.find? (·.chunkIndex == request.chunkIndex) with
  | none =>
    throw ⟨.validation, "unknown_chunk_index",
      "chunk_index is not present in the upload session manifest"⟩
  | some manifestChunk =>
    if manifestChunk.cid ≠ request.chunkCid ∨ manifestChunk.offset ≠ request.chunkOffset ∨
        manifestChunk.storedLen ≠ request.chunkLength then
      throw ⟨.validation, "chunk_descriptor_mismatch",
        "chunk descriptor does not match manifest chunk reference"⟩
  if request.chunkLength.toNat ≠ ciphertextChunk.length then
    throw ⟨.validation, "chunk_length_mismatch",
      "PUT_CHUNK chunk_length must match the actual ciphertext payload length"⟩
  if ciphertextChunk.length > defaultLimits.maxChunkSize then
    throw ⟨.validation, "chunk_too_large", "ciphertext chunk exceeds max_chunk_size"⟩

/-- Insertion of an index into the sorted list of uploaded chunks. -/
def noteUploaded (uploaded : List UInt32) (index : UInt32) : List UInt32 :=
  if uploaded.contains index then uploaded
  else (uploaded ++ [index]).insertionSort (· ≤ ·)

/-- A chunk that is already stored is not written again. -/
def storeChunk (request : PutChunkRequest) (ciphertextChunk : List UInt8) (duplicate : Bool) :
    Svc Unit :=
  if duplicate then pure ()
  else writeEncryptedJson (.chunks request.tenantId request.chunkCid) ciphertextChunk

def putChunk (auth : AuthContext) (request : PutChunkRequest) (ciphertextChunk : List UInt8) :
    Svc PutChunkResponse := do
  rejectIf (cidFromBytes env ciphertextChunk ≠ request.chunkCid)
    ⟨.validation, "chunk_cid_mismatch", "chunk ciphertext CID does not match request.chunk_cid"⟩
  let session ← uploadSession request.tenantId request.sessionId
  ofExcept (checkChunk session request ciphertextChunk)
  -- There is no idempotency key here, so a second use of the token is a replay.
  let _ ← authorize env auth {
    operation := .putChunk
    tenantId := request.tenantId
    subject := request.sessionId ++ ":" ++ toString request.chunkIndex.toNat
    contentSize := some (.ofNat ciphertextChunk.length)
    storageClass := some session.storageClass
    keyPolicyId := some session.manifest.encryptionDescriptor.keyPolicyId
    encryptionProfileId := some session.manifest.encryptionDescriptor.encryptionProfileId }
  let duplicate ← chunkExists request.tenantId request.chunkCid
  storeChunk request ciphertextChunk duplicate
  writeEncryptedJson (.sessions request.tenantId request.sessionId)
    { session with uploadedChunks := noteUploaded session.uploadedChunks request.chunkIndex }
  return { stored := !duplicate, duplicate, verifiedCid := true }

/-! ### PUT_COMMIT -/

/-- Every chunk of the manifest must be stored. -/
def checkChunksStored (tenantId : TenantId) : List ChunkRef → Svc Unit
  | [] => pure ()
  | chunkRef :: rest => do
    -- Only presence is checked: the length is not compared with the reference.
    let present ← chunkExists tenantId chunkRef.cid
    rejectIf (!present)
      ⟨.conflict, "missing_chunk", "missing ciphertext chunk " ++ chunkRef.cid⟩
    checkChunksStored tenantId rest

/-- The bind request of a commit. -/
def AtomicBindRequest.toBindRequest (atomicBind : AtomicBindRequest) (tenantId : TenantId)
    (targetCid idempotencyKey : String) : BindRequest where
  tenantId := tenantId
  ns := atomicBind.ns
  path := atomicBind.path
  targetCid := targetCid
  ifRevision := atomicBind.ifRevision
  ifAbsent := atomicBind.ifRevision.isNone
  metadata := atomicBind.metadata
  ttlMs := atomicBind.ttlMs
  idempotencyKey := idempotencyKey
  signedRecordB64 := atomicBind.signedRecordB64

/-- The bind of a commit.  When it fails, the manifest that was just written is removed again, and
a failure to remove it is ignored. -/
def commitBind (auth : AuthContext) (request : PutCommitRequest) (session : UploadSessionRecord) :
    Svc Unit :=
  match session.atomicBind with
  | none => pure ()
  | some atomicBind => do
    let bound ← Prog.attempt (bindInternal env auth
      (atomicBind.toBindRequest request.tenantId session.manifestCid request.idempotencyKey) false)
    match bound with
    | .ok _ => pure ()
    | .error error => do
      let _ ← Prog.attempt (deleteStoreKey (.manifests request.tenantId session.manifestCid))
      throw error

/-- The part of `put_commit` after the lookup of a stored response. -/
def putCommitApply (auth : AuthContext) (request : PutCommitRequest)
    (session : UploadSessionRecord) : Svc PutCommitResponse := do
  checkChunksStored request.tenantId session.manifest.chunkRefs
  let committedAtMs ← nowMs
  writeEncryptedJson (.manifests request.tenantId session.manifestCid) {
    tenantId := request.tenantId
    manifest := session.manifest
    manifestCid := session.manifestCid
    objectCid := session.manifestCid
    storageClass := session.storageClass
    committedAtMs }
  -- The manifest is visible from here on, until a failed bind takes it away again.
  commitBind env auth request session
  let atMs ← nowMs
  let eventSeq ← appendEvent request.tenantId {
    version := 1
    seq := 0
    atMs
    eventType := .objectCommitted
    subjectKind := "object"
    ns := session.atomicBind.map (·.ns)
    path := session.atomicBind.map (·.path)
    cid := some session.manifestCid
    revision := none
    traceId := none
    payload := .ofList [("session_id", request.sessionId), ("manifest_cid", session.manifestCid)] }
  writeAudit env request.tenantId eventSeq OperationName.putCommit.asStr request.sessionId
  writeEncryptedJson (.sessions request.tenantId request.sessionId)
    { session with committed := true }
  let response : PutCommitResponse :=
    { objectCid := session.manifestCid, committed := true, eventSeq }
  writeEncryptedJson (.idempotency request.tenantId .putCommit request.idempotencyKey) ⟨response⟩
  return response

/-- The request `put_commit` puts to the policy engine. -/
def commitMeta (request : PutCommitRequest) (session : UploadSessionRecord) : AuthRequestMeta where
  operation := .putCommit
  tenantId := request.tenantId
  subject := request.sessionId
  ns := session.atomicBind.map (·.ns)
  path := session.atomicBind.map (·.path)
  contentSize := some session.manifest.storedSize
  storageClass := some session.storageClass
  keyPolicyId := some session.manifest.encryptionDescriptor.keyPolicyId
  encryptionProfileId := some session.manifest.encryptionDescriptor.encryptionProfileId
  idempotencyKey := some request.idempotencyKey

/-- The part of `put_commit` after the session has been read. -/
def putCommitWith (auth : AuthContext) (request : PutCommitRequest)
    (session : UploadSessionRecord) : Svc PutCommitResponse := do
  rejectIf (session.manifestCid ≠ request.manifestCid)
    ⟨.conflict, "manifest_cid_mismatch",
      "request manifest_cid does not match upload session manifest"⟩
  -- Neither the deadline of the session nor its `committed` flag is looked at.
  let decision ← authorize env auth (commitMeta request session)
  match ← storedResponse request.tenantId .putCommit request.idempotencyKey true decision with
  | some record => return record.response
  | none => putCommitApply env auth request session

def putCommit (auth : AuthContext) (request : PutCommitRequest) : Svc PutCommitResponse := do
  let session ← uploadSession request.tenantId request.sessionId
  putCommitWith env auth request session

end Hsp
