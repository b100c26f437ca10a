import Hsp.Core.Cbor
import Std.Data.ExtTreeMap

/-!
# The data model

The requests, responses and records of `hsp-core`, with the checks and the canonical values the
crate defines on them.

Numbers that arrive in a request or are hashed into a content identifier keep their machine type.
Counters the server itself counts up (revisions, event sequence numbers) and clock readings are
natural numbers.  A `BTreeMap` is an extensional search tree, so equality of maps is equality of
their entries.
-/

namespace Hsp

/-- An ordered map, as `std::collections::BTreeMap`. -/
abbrev BTreeMap (κ ν : Type) [Ord κ] := Std.ExtTreeMap κ ν compare

/-- Metadata of an object, a binding or an event. -/
abbrev Metadata := BTreeMap String String

structure TenantId where
  val : String
  deriving DecidableEq, Repr

structure KeyPolicyId where
  val : String
  deriving DecidableEq, Repr

structure EncryptionProfileId where
  val : String
  deriving DecidableEq, Repr

inductive VisibilityMode where
  | serverVisible | encryptedOnly | split
  deriving DecidableEq, Repr

def VisibilityMode.asStr : VisibilityMode → String
  | .serverVisible => "server_visible"
  | .encryptedOnly => "encrypted_only"
  | .split => "split"

inductive CapabilityScope where
  | read | write | bind | unbind | list | subscribe | pin | replicate
  | adminMetricsRead | adminAuditRead | adminRepair | adminKeyRotate | adminPolicyWrite
  deriving DecidableEq, Repr

inductive OperationName where
  | info | head | get | resolve | bind | unbind | list | subscribe | putInit | putChunk | putCommit
  deriving DecidableEq, Repr

def OperationName.asStr : OperationName → String
  | .info => "INFO"
  | .head => "HEAD"
  | .get => "GET"
  | .resolve => "RESOLVE"
  | .bind => "BIND"
  | .unbind => "UNBIND"
  | .list => "LIST"
  | .subscribe => "SUBSCRIBE"
  | .putInit => "PUT_INIT"
  | .putChunk => "PUT_CHUNK"
  | .putCommit => "PUT_COMMIT"

/-- The operations that change stored data. -/
def OperationName.isMutation : OperationName → Bool
  | .bind | .unbind | .putInit | .putChunk | .putCommit => true
  | _ => false

inductive ApiErrorCategory where
  | auth | replay | policy | validation | unsupported | notFound | conflict | storage
  deriving DecidableEq, Repr

structure ApiError where
  category : ApiErrorCategory
  code : String
  message : String
  deriving DecidableEq, Repr

/-- `char::is_whitespace`: the Unicode property `White_Space`. -/
def isWhitespace (c : Char) : Bool :=
  let n := c.toNat
  (0x9 ≤ n && n ≤ 0xd) || n == 0x20 || n == 0x85 || n == 0xa0 || n == 0x1680 ||
    (0x2000 ≤ n && n ≤ 0x200a) || n == 0x2028 || n == 0x2029 || n == 0x202f || n == 0x205f ||
    n == 0x3000

/-- `s.trim().is_empty()`. -/
def trimIsEmpty (s : String) : Bool := s.toList.all isWhitespace

structure ServiceLimits where
  maxChunkSize : ℕ
  maxManifestSize : ℕ
  maxObjectSize : ℕ
  maxParallelChunkStreams : ℕ

def defaultLimits : ServiceLimits where
  maxChunkSize := 4 * 1024 * 1024
  maxManifestSize := 8 * 1024 * 1024
  maxObjectSize := 4 * 1024 * 1024 * 1024
  maxParallelChunkStreams := 8

/-- `event_replay_window_sec` of the settings frame. -/
@[irreducible] def eventReplayWindowSec : ℕ := 3600

/-! ### Manifests -/

/-- A field of a canonical map that may be absent. -/
def optField (k : UInt64) : Option CanonicalValue → List (UInt64 × CanonicalValue)
  | none => []
  | some v => [(k, v)]

def optText (k : UInt64) (s : Option String) : List (UInt64 × CanonicalValue) :=
  optField k (s.map .text)

def optUnsigned (k : UInt64) (n : Option UInt64) : List (UInt64 × CanonicalValue) :=
  optField k (n.map .unsigned)

/-- A metadata map as an array of key and value pairs, in key order. -/
def metadataMapToCanonicalValue (metadata : Metadata) : CanonicalValue :=
  .array (metadata.toList.map fun kv => .array [.text kv.1, .text kv.2])

structure WrappedObjectKeyRecord where
  recipientKeyId : String
  wrappingSuite : String
  wrappedKeyB64 : String
  keyVersion : UInt32
  encapsulatedKeyB64 : Option String
  deriving DecidableEq

def WrappedObjectKeyRecord.canonicalValue (r : WrappedObjectKeyRecord) : CanonicalValue :=
  .map ([(1, .text r.recipientKeyId), (2, .text r.wrappingSuite), (3, .text r.wrappedKeyB64),
    (4, .unsigned r.keyVersion.toUInt64)] ++ optText 5 r.encapsulatedKeyB64)

structure EncryptionDescriptor where
  encryptionProfileId : EncryptionProfileId
  keyPolicyId : KeyPolicyId
  contentEncryptionSuite : String
  keyWrappingSuite : String
  metadataVisibility : VisibilityMode
  wrappedObjectKeys : List WrappedObjectKeyRecord
  serverVisibleMetadata : Metadata
  encryptedClientMetadata : Metadata
  deriving DecidableEq

namespace EncryptionDescriptor

def validate (d : EncryptionDescriptor) : Except ApiError Unit := do
  if trimIsEmpty d.contentEncryptionSuite then
    throw ⟨.validation, "missing_content_encryption_suite", "content_encryption_suite must be set"⟩
  if trimIsEmpty d.keyWrappingSuite then
    throw ⟨.validation, "missing_key_wrapping_suite", "key_wrapping_suite must be set"⟩
  if d.wrappedObjectKeys.isEmpty then
    throw ⟨.validation, "missing_wrapped_object_keys",
      "at least one wrapped object key record is required"⟩

def canonicalValue (d : EncryptionDescriptor) : CanonicalValue :=
  .map [(1, .text d.encryptionProfileId.val), (2, .text d.keyPolicyId.val),
    (3, .text d.contentEncryptionSuite), (4, .text d.keyWrappingSuite),
    (5, .text d.metadataVisibility.asStr),
    (6, .array (d.wrappedObjectKeys.map WrappedObjectKeyRecord.canonicalValue)),
    (7, metadataMapToCanonicalValue d.serverVisibleMetadata),
    (8, metadataMapToCanonicalValue d.encryptedClientMetadata)]

end EncryptionDescriptor

/-- A reference from a manifest to one stored chunk. -/
structure ChunkRef where
  chunkIndex : UInt32
  cid : String
  offset : UInt64
  logicalLen : UInt64
  storedLen : UInt64
  contentEncoding : String
  deriving DecidableEq

def ChunkRef.canonicalValue (c : ChunkRef) : CanonicalValue :=
  .map [(1, .text c.cid), (2, .unsigned c.chunkIndex.toUInt64), (3, .unsigned c.offset),
    (4, .unsigned c.logicalLen), (5, .unsigned c.storedLen), (6, .text c.contentEncoding)]

/-- The fields of a manifest. -/
structure ManifestFields where
  version : UInt8
  tenantId : TenantId
  logicalSize : UInt64
  storedSize : UInt64
  chunker : String
  chunkRefs : List ChunkRef
  contentType : String
  createdAtMs : UInt64
  encryptionDescriptor : EncryptionDescriptor
  deriving DecidableEq

def ManifestFields.canonicalValue (m : ManifestFields) : CanonicalValue :=
  .map [(1, .unsigned m.version.toUInt64), (2, .text m.tenantId.val),
    (3, .unsigned m.logicalSize), (4, .unsigned m.storedSize), (5, .text m.chunker),
    (6, .array (m.chunkRefs.map ChunkRef.canonicalValue)), (7, .text m.contentType),
    (8, .unsigned m.createdAtMs), (9, m.encryptionDescriptor.canonicalValue)]

/-- The description of an object: its sizes, its chunks and how it is encrypted. -/
structure Manifest extends ManifestFields where
  /-- A manifest is a value in memory: its strings and lists are shorter than `2 ^ 64`. -/
  fits : toManifestFields.canonicalValue.Fits
  deriving DecidableEq

def Manifest.validate (m : Manifest) : Except ApiError Unit := do
  if m.chunkRefs.isEmpty then
    throw ⟨.validation, "empty_chunk_refs", "manifest must contain at least one chunk reference"⟩
  if m.storedSize = 0 ∨ m.logicalSize = 0 then
    throw ⟨.validation, "zero_sized_manifest", "logical_size and stored_size must be non-zero"⟩
  m.encryptionDescriptor.validate

def Manifest.canonicalCborBytes (m : Manifest) : List UInt8 :=
  encodeCanonicalCbor m.canonicalValue

/-! ### Capabilities -/

structure ChannelBindingProof where
  bindingKind : String
  proofB64 : String
  nonce : String
  deriving DecidableEq

structure CapabilityClaims where
  iss : String
  sub : String
  aud : String
  exp : UInt64
  nbf : Option UInt64
  jti : Option String
  ops : List CapabilityScope
  tenantId : TenantId
  namespacePrefix : Option String
  pathPrefix : Option String
  maxObjectSize : Option UInt64
  storageClasses : List String
  keyPolicyId : Option KeyPolicyId
  metadataVisibility : Option VisibilityMode
  deriving DecidableEq

/-! ### Namespaces -/

inductive ObjectSelectorKind where
  | cid | «namespace»
  deriving DecidableEq

/-- What a read asks for: an object by its identifier, or what a path is bound to. -/
structure ObjectSelector where
  kind : ObjectSelectorKind
  cid : Option String
  ns : Option String
  path : Option String
  deriving DecidableEq

def ObjectSelector.validate (s : ObjectSelector) : Except ApiError Unit :=
  match s.kind with
  | .cid =>
    if (s.cid.getD "").isEmpty then
      throw ⟨.validation, "missing_cid_selector", "cid selector must include cid"⟩
    else pure ()
  | .namespace =>
    if (s.ns.getD "").isEmpty || (s.path.getD "").isEmpty then
      throw ⟨.validation, "missing_namespace_selector",
        "namespace selector must include namespace and path"⟩
    else pure ()

structure AtomicBindRequest where
  ns : String
  path : String
  ifRevision : Option UInt64
  metadata : Metadata
  ttlMs : Option UInt64
  signedRecordB64 : String
  deriving DecidableEq

inductive NamespaceMutationKind where
  | bind | unbind | hardDelete
  deriving DecidableEq

def NamespaceMutationKind.asStr : NamespaceMutationKind → String
  | .bind => "bind"
  | .unbind => "unbind"
  | .hardDelete => "hard_delete"

/-- The fields of a mutation record. -/
structure NamespaceMutationFields where
  version : UInt8
  tenantId : TenantId
  ns : String
  path : String
  kind : NamespaceMutationKind
  targetCid : Option String
  ifRevision : Option UInt64
  ttlMs : Option UInt64
  metadata : Metadata
  issuedAtMs : UInt64
  deriving DecidableEq

def NamespaceMutationFields.canonicalValue (r : NamespaceMutationFields) : CanonicalValue :=
  .map ([(1, .unsigned r.version.toUInt64), (2, .text r.tenantId.val), (3, .text r.ns),
    (4, .text r.path), (5, .text r.kind.asStr)] ++ optText 6 r.targetCid ++
    optUnsigned 7 r.ifRevision ++ optUnsigned 8 r.ttlMs ++
    [(9, metadataMapToCanonicalValue r.metadata), (10, .unsigned r.issuedAtMs)])

/-- A change of one namespace path, as its issuer signs it. -/
structure NamespaceMutationRecord extends NamespaceMutationFields where
  /-- A record is a value in memory: its strings and lists are shorter than `2 ^ 64`. -/
  fits : toNamespaceMutationFields.canonicalValue.Fits
  deriving DecidableEq

def NamespaceMutationRecord.validate (r : NamespaceMutationRecord) : Except ApiError Unit := do
  if trimIsEmpty r.ns then
    throw ⟨.validation, "missing_namespace", "namespace mutation must include namespace"⟩
  if trimIsEmpty r.path then
    throw ⟨.validation, "missing_path", "namespace mutation must include path"⟩
  if r.kind = .bind ∧ (r.targetCid.getD "").isEmpty then
    throw ⟨.validation, "missing_target_cid", "bind mutation must include target_cid"⟩

def NamespaceMutationRecord.canonicalCborBytes (r : NamespaceMutationRecord) : List UInt8 :=
  encodeCanonicalCbor r.canonicalValue

structure ResolveRequest where
  tenantId : TenantId
  ns : String
  path : String
  atRevision : Option UInt64
  ifRevision : Option UInt64

structure ResolveResponse where
  revision : ℕ
  targetCid : Option String
  manifestCid : Option String
  recordCid : String
  metadata : Metadata
  tombstone : Bool
  deriving DecidableEq

structure BindRequest where
  tenantId : TenantId
  ns : String
  path : String
  targetCid : String
  ifRevision : Option UInt64
  ifAbsent : Bool
  metadata : Metadata
  ttlMs : Option UInt64
  idempotencyKey : String
  signedRecordB64 : String

structure BindResponse where
  revision : ℕ
  recordCid : String
  eventSeq : ℕ
  deriving DecidableEq

structure UnbindRequest where
  tenantId : TenantId
  ns : String
  path : String
  ifRevision : UInt64
  hardDelete : Bool
  idempotencyKey : String
  signedRecordB64 : String

structure UnbindResponse where
  revision : ℕ
  recordCid : String
  eventSeq : ℕ
  tombstone : Bool
  deriving DecidableEq

structure ListRequest where
  tenantId : TenantId
  ns : String
  pathPrefix : Option String
  cursor : Option String
  limit : Option UInt32
  includeTombstones : Bool

structure ListItem where
  ns : String
  path : String
  targetCid : Option String
  manifestCid : Option String
  revision : ℕ
  recordCid : String
  metadata : Metadata
  tombstone : Bool
  deriving DecidableEq

structure ListResponse where
  items : List ListItem
  nextCursor : Option String
  truncated : Bool
  namespaceRevisionSnapshot : ℕ
  deriving DecidableEq

/-! ### Events -/

inductive EventType where
  | objectCommitted | namespaceBound | namespaceUnbound | namespaceTombstoned | authDenied
  | pinAccepted
  deriving DecidableEq

structure EventRecord where
  version : UInt8
  seq : ℕ
  atMs : ℕ
  eventType : EventType
  subjectKind : String
  ns : Option String
  path : Option String
  cid : Option String
  revision : Option ℕ
  traceId : Option String
  payload : Metadata
  deriving DecidableEq

structure SubscribeFilter where
  namespacePrefix : Option String
  pathExact : Option String
  objectCid : Option String
  eventType : Option EventType
  tenantScope : Option TenantId

structure SubscribeRequest where
  tenantId : TenantId
  filters : List SubscribeFilter
  cursor : Option String
  fromSeq : Option UInt64
  batchMax : Option UInt32

structure NoticeFrame where
  kind : String
  message : Option String
  cursor : Option String
  deriving DecidableEq

/-- What a subscriber receives: an event, or a notice that there is none. -/
inductive SubscribeEnvelope where
  | event (e : EventRecord)
  | notice (n : NoticeFrame)
  deriving DecidableEq

/-! ### Uploads and reads -/

structure PutInitRequest where
  tenantId : TenantId
  manifest : Manifest
  idempotencyKey : String
  encryptionProfileId : EncryptionProfileId
  keyPolicyId : KeyPolicyId
  metadataVisibility : VisibilityMode
  storageClass : String
  atomicBind : Option AtomicBindRequest

structure PutInitResponse where
  sessionId : String
  missingChunks : List UInt32
  acceptedManifestCid : String
  uploadDeadlineMs : ℕ
  maxParallelChunkStreams : ℕ
  deriving DecidableEq

structure PutChunkRequest where
  tenantId : TenantId
  sessionId : String
  chunkIndex : UInt32
  chunkCid : String
  chunkOffset : UInt64
  chunkLength : UInt64

structure PutChunkResponse where
  stored : Bool
  duplicate : Bool
  verifiedCid : Bool
  deriving DecidableEq

structure PutCommitRequest where
  tenantId : TenantId
  sessionId : String
  manifestCid : String
  idempotencyKey : String

structure PutCommitResponse where
  objectCid : String
  committed : Bool
  eventSeq : ℕ
  deriving DecidableEq

inductive GetPreference where
  | raw | chunkStream | manifestOnly
  deriving DecidableEq

structure RangeSpec where
  start : UInt64
  «end» : UInt64
  deriving DecidableEq

def RangeSpec.validate (r : RangeSpec) : Except ApiError Unit :=
  if r.start > r.end then
    throw ⟨.validation, "invalid_range", "range start must be less than or equal to end"⟩
  else pure ()

structure HeadRequest where
  tenantId : TenantId
  selector : ObjectSelector

/-- What `HEAD` and `GET` say about an object before its bytes. -/
structure ObjectMeta where
  «exists» : Bool
  deleted : Bool
  cid : String
  objectCid : String
  manifestCid : String
  integrityHash : String
  storageClass : String
  resolvedNamespace : Option String
  resolvedPath : Option String
  resolvedRevision : Option ℕ
  resolvedRecordCid : Option String
  sizeBytes : UInt64
  ciphertextSizeBytes : UInt64
  logicalSize : UInt64
  storedSize : UInt64
  contentType : String
  createdAtMs : UInt64
  encryptionProfileId : EncryptionProfileId
  keyPolicyId : KeyPolicyId
  metadataVisibility : VisibilityMode
  serverVisibleMetadata : Metadata
  encryptedClientMetadataRedacted : Bool
  deriving DecidableEq

/-- A `HEAD` answers with the metadata alone. -/
abbrev HeadResponse := ObjectMeta

structure GetRequest where
  tenantId : TenantId
  selector : ObjectSelector
  preference : Option GetPreference
  range : Option RangeSpec

structure GetChunkDescriptor where
  chunkIndex : UInt32
  chunkCid : String
  chunkOffset : UInt64
  logicalRangeStart : ℕ
  logicalRangeEnd : ℕ
  fragmentOffset : ℕ
  fragmentLength : ℕ
  contentEncoding : String
  deriving DecidableEq

structure GetResponseMeta extends ObjectMeta where
  preference : GetPreference
  manifest : Option Manifest
  chunkDescriptors : List GetChunkDescriptor
  deriving DecidableEq

structure GetChunk where
  descriptor : GetChunkDescriptor
  bytes : List UInt8
  deriving DecidableEq

structure GetResponse where
  «meta» : GetResponseMeta
  chunks : List GetChunk
  deriving DecidableEq

end Hsp
