import Hsp.Core.Cursor
import Hsp.Service.Upload

/-!
# Reads

`HEAD`, `GET`, `RESOLVE`, `LIST` and `SUBSCRIBE`.
-/

namespace Hsp

variable (env : Env)

/-! ### Selectors -/

structure SelectorResolution where
  manifestCid : String
  ns : Option String
  path : Option String
  revision : Option ℕ
  recordCid : Option String

/-- The object a selector names.  The selector has been validated, so its fields are present. -/
def selectorResolution (tenantId : TenantId) (selector : ObjectSelector) :
    Svc SelectorResolution :=
  match selector.kind with
  | .cid => pure ⟨selector.cid.getD "", none, none, none, none⟩
  | .namespace => do
    let ns := selector.ns.getD ""
    let path := selector.path.getD ""
    let resolved ← resolveSnapshot tenantId ns path none none
    rejectIf resolved.tombstone ⟨.notFound, "path_tombstoned", "namespace path is tombstoned"⟩
    match resolved.manifestCid with
    | none =>
      throw ⟨.notFound, "path_not_bound", "namespace path does not resolve to a committed object"⟩
    | some manifestCid =>
      return ⟨manifestCid, some ns, some path, some resolved.revision, some resolved.recordCid⟩

/-- What `HEAD` and `GET` say about a resolved object. -/
def objectMeta (resolution : SelectorResolution) (record : ManifestRecord) : ObjectMeta where
  «exists» := true
  deleted := false
  cid := record.objectCid
  objectCid := record.objectCid
  manifestCid := record.manifestCid
  integrityHash := record.objectCid
  storageClass := record.storageClass
  resolvedNamespace := resolution.ns
  resolvedPath := resolution.path
  resolvedRevision := resolution.revision
  resolvedRecordCid := resolution.recordCid
  sizeBytes := record.manifest.logicalSize
  ciphertextSizeBytes := record.manifest.storedSize
  logicalSize := record.manifest.logicalSize
  storedSize := record.manifest.storedSize
  contentType := record.manifest.contentType
  createdAtMs := record.manifest.createdAtMs
  encryptionProfileId := record.manifest.encryptionDescriptor.encryptionProfileId
  keyPolicyId := record.manifest.encryptionDescriptor.keyPolicyId
  metadataVisibility := record.manifest.encryptionDescriptor.metadataVisibility
  serverVisibleMetadata := record.manifest.encryptionDescriptor.serverVisibleMetadata
  encryptedClientMetadataRedacted :=
    !record.manifest.encryptionDescriptor.encryptedClientMetadata.isEmpty

/-- The request `HEAD` and `GET` put to the policy engine. -/
def readMeta (operation : OperationName) (tenantId : TenantId) (resolution : SelectorResolution) :
    AuthRequestMeta where
  operation := operation
  tenantId := tenantId
  subject := resolution.manifestCid
  ns := resolution.ns
  path := resolution.path

/-! ### HEAD -/

def head (auth : AuthContext) (request : HeadRequest) : Svc HeadResponse := do
  ofExcept request.selector.validate
  let resolution ← selectorResolution request.tenantId request.selector
  let _ ← authorize env auth (readMeta .head request.tenantId resolution)
  let record ← manifestRecord request.tenantId resolution.manifestCid
  return objectMeta resolution record

/-! ### GET -/

/-- `u64::saturating_add`. -/
def satAdd (a b : ℕ) : ℕ := min (a + b) (2 ^ 64 - 1)

/-- `slice.get(start..end)`. -/
def slice {α : Type} (bytes : List α) (start stop : ℕ) : Option (List α) :=
  if start ≤ stop ∧ stop ≤ bytes.length then some ((bytes.take stop).drop start) else none

/-- The part of a chunk that lies in a range, or nothing if they are disjoint. -/
def chunkFragment (rangeStart rangeEnd : ℕ) (chunkRef : ChunkRef) : Option GetChunkDescriptor :=
  let chunkStart := chunkRef.offset.toNat
  let chunkEnd := satAdd chunkStart (chunkRef.logicalLen.toNat - 1)
  if chunkEnd < rangeStart ∨ chunkStart > rangeEnd then none
  else
    -- Offsets in the object and lengths of the stored bytes are taken to be the same thing.
    let fragmentStart := max rangeStart chunkStart
    let fragmentEnd := min rangeEnd chunkEnd
    some {
      chunkIndex := chunkRef.chunkIndex
      chunkCid := chunkRef.cid
      chunkOffset := chunkRef.offset
      logicalRangeStart := fragmentStart
      logicalRangeEnd := fragmentEnd
      fragmentOffset := fragmentStart - chunkStart
      fragmentLength := satAdd (fragmentEnd - fragmentStart) 1
      contentEncoding := chunkRef.contentEncoding }

/-- The loop of `get` over the chunks of a manifest. -/
def readFragments (tenantId : TenantId) (rangeStart rangeEnd : ℕ) :
    List ChunkRef → Svc (List GetChunk)
  | [] => pure []
  | chunkRef :: rest =>
    match chunkFragment rangeStart rangeEnd chunkRef with
    | none => readFragments tenantId rangeStart rangeEnd rest
    | some descriptor => do
      match ← readEncryptedJson (.chunks tenantId chunkRef.cid) with
      | none =>
        throw ⟨.notFound, "missing_chunk", "missing ciphertext chunk " ++ chunkRef.cid⟩
      | some bytes =>
        match slice bytes descriptor.fragmentOffset
            (descriptor.fragmentOffset + descriptor.fragmentLength) with
        | none =>
          throw ⟨.validation, "invalid_range",
            "requested chunk fragment does not match stored ciphertext length"⟩
        | some fragment => do
          let chunks ← readFragments tenantId rangeStart rangeEnd rest
          return ⟨descriptor, fragment⟩ :: chunks

/-- The logical range a `GET` asks for: all of the object if it names none. -/
def requestedRange (logicalSize : UInt64) : Option RangeSpec → Except ApiError (ℕ × ℕ)
  | some range =>
    if range.end ≥ logicalSize then
      .error ⟨.validation, "invalid_range", "range end is outside object logical size"⟩
    else .ok (range.start.toNat, range.end.toNat)
  | none => .ok (0, logicalSize.toNat - 1)

/-- The part of `get` after the manifest has been read. -/
def getObject (request : GetRequest) (resolution : SelectorResolution) (record : ManifestRecord) :
    Svc GetResponse := do
  let preference := request.preference.getD .chunkStream
  let responseMeta : GetResponseMeta :=
    { toObjectMeta := objectMeta resolution record, preference, manifest := none,
      chunkDescriptors := [] }
  match preference with
  | .raw =>
    throw ⟨.unsupported, "unsupported_preference", "raw GET is not supported in public E2EE beta"⟩
  | .manifestOnly => return ⟨{ responseMeta with manifest := some record.manifest }, []⟩
  | .chunkStream => do
    let (rangeStart, rangeEnd) ←
      ofExcept (requestedRange record.manifest.logicalSize request.range)
    let chunks ← readFragments request.tenantId rangeStart rangeEnd record.manifest.chunkRefs
    return ⟨{ responseMeta with chunkDescriptors := chunks.map (·.descriptor) }, chunks⟩

def validateRange : Option RangeSpec → Except ApiError Unit
  | some range => range.validate
  | none => pure ()

def get (auth : AuthContext) (request : GetRequest) : Svc GetResponse := do
  ofExcept request.selector.validate
  ofExcept (validateRange request.range)
  let resolution ← selectorResolution request.tenantId request.selector
  let _ ← authorize env auth (readMeta .get request.tenantId resolution)
  let record ← manifestRecord request.tenantId resolution.manifestCid
  getObject request resolution record

/-! ### RESOLVE and LIST -/

def resolve (auth : AuthContext) (request : ResolveRequest) : Svc ResolveResponse := do
  let (ns, path) ← ofExcept (canonicalNamespaceAndPath request.ns request.path)
  let _ ← authorize env auth {
    operation := .resolve
    tenantId := request.tenantId
    subject := ns ++ ":" ++ path
    ns := some ns
    path := some path }
  let snapshot ← namespaceSnapshotAt request.tenantId ns (request.atRevision.map (·.toNat))
  ofExcept (resolveBinding snapshot path request.ifRevision)

/-- A path lies at or below a prefix. -/
def underPrefix (pathPrefix : Option String) (path : String) : Bool :=
  match pathPrefix with
  | none => true
  | some p => path == p || (p ++ "/").toList.isPrefixOf path.toList

/-- The items of a snapshot a list request asks for, in path order. -/
def listItems (snapshot : NamespaceCurrentState) (pathPrefix : Option String)
    (includeTombstones : Bool) : List NamespaceBindingState :=
  ((snapshot.bindings.toList.map (·.2)).filter fun binding =>
    underPrefix pathPrefix binding.path && (includeTombstones || !binding.tombstone)).mergeSort
      fun left right => left.path ≤ right.path

/-- One page of items: those after the last path of the previous page. -/
def listPage (tenantId : TenantId) (ns : String) (pathPrefix lastPath : Option String)
    (limit snapshotRevision : ℕ) (allItems : List NamespaceBindingState) : ListResponse :=
  let startIndex := match lastPath with
    | none => 0
    -- A last path that is not among the items starts the listing over.
    | some path => (allItems.findIdx? (·.path == path)).elim 0 (· + 1)
  let page : List ListItem := ((allItems.drop startIndex).take limit).map fun binding =>
    { ns, path := binding.path, targetCid := binding.targetCid,
      manifestCid := binding.manifestCid, revision := binding.revision,
      recordCid := binding.recordCid, metadata := binding.metadata,
      tombstone := binding.tombstone }
  let truncated : Bool := startIndex + page.length < allItems.length
  { items := page
    nextCursor :=
      if truncated then
        let lastPath := (page.getLast?.map (·.path)).getD ""
        some (ListCursor.encode { tenantId, ns, pathPrefix, snapshotRevision, lastPath })
      else none
    truncated
    namespaceRevisionSnapshot := snapshotRevision }

/-- The revision a list request reads at, and the last path of the page before. -/
def listStart (request : ListRequest) (ns : String) (pathPrefix : Option String) :
    Svc (ℕ × Option String) :=
  match request.cursor with
  | some encoded => do
    let cursor ← ofExcept (ListCursor.decode env encoded)
    rejectIf (cursor.tenantId ≠ request.tenantId ∨ cursor.ns ≠ ns ∨
        cursor.pathPrefix ≠ pathPrefix)
      ⟨.validation, "invalid_cursor", "cursor does not match current list request"⟩
    return (cursor.snapshotRevision, some cursor.lastPath)
  | none => do
    let current ← namespaceCurrentState request.tenantId ns
    return (current.revision, none)

/-- The canonical namespace and prefix of a list request. -/
def canonicalListTarget (request : ListRequest) : Except ApiError (String × Option String) :=
  match canonicalPath request.ns with
  | .error error => .error ⟨.validation, "invalid_namespace", error.display⟩
  | .ok ns =>
    match request.pathPrefix with
    | none => .ok (ns, none)
    | some value =>
      match canonicalPath value with
      | .error error => .error ⟨.validation, "invalid_prefix", error.display⟩
      | .ok pathPrefix => .ok (ns, some pathPrefix)

def list (auth : AuthContext) (request : ListRequest) : Svc ListResponse := do
  let (ns, pathPrefix) ← ofExcept (canonicalListTarget request)
  let _ ← authorize env auth {
    operation := .list
    tenantId := request.tenantId
    subject := "list:" ++ ns
    ns := some ns
    path := pathPrefix }
  let (snapshotRevision, lastPath) ← listStart env request ns pathPrefix
  let snapshot ← namespaceSnapshotAt request.tenantId ns (some snapshotRevision)
  return listPage request.tenantId ns pathPrefix lastPath (request.limit.getD 100).toNat
    snapshotRevision (listItems snapshot pathPrefix request.includeTombstones)

/-! ### SUBSCRIBE -/

def ensureEventCursorWithinWindow (tenantId : TenantId) (nextSeq : ℕ) : Svc Unit := do
  let latestNextSeq ← nextReadEventSeq tenantId
  rejectIf (nextSeq < latestNextSeq - eventReplayWindowSec)
    ⟨.validation, "cursor_expired", "event cursor is outside the replay window"⟩

/-- Every filter of a subscription is authorized on its own. -/
def authorizeFilters (auth : AuthContext) (tenantId : TenantId) :
    ℕ → List SubscribeFilter → Svc Unit
  | _, [] => pure ()
  | index, filter :: rest => do
    let _ ← authorize env auth {
      operation := .subscribe
      tenantId
      subject := "events:filter:" ++ toString index
      ns := filter.namespacePrefix
      path := filter.pathExact }
    authorizeFilters auth tenantId (index + 1) rest

/-- A subscription without filters is authorized as a whole. -/
def authorizeSubscription (auth : AuthContext) (request : SubscribeRequest) : Svc Unit :=
  if request.filters.isEmpty then do
    let _ ← authorize env auth {
      operation := .subscribe, tenantId := request.tenantId, subject := "events" }
  else authorizeFilters env auth request.tenantId 0 request.filters

/-- The sequence number a subscription starts from. -/
def startSeq (request : SubscribeRequest) (latestNextSeq : ℕ) : Except ApiError ℕ :=
  match request.cursor with
  | some cursor => do
    let decoded ← EventCursor.decode env cursor
    if decoded.tenantId ≠ request.tenantId then
      throw ⟨.validation, "invalid_cursor", "event cursor tenant does not match request tenant"⟩
    return decoded.nextSeq
  | none =>
    match request.fromSeq with
    | some fromSeq => pure fromSeq.toNat
    | none => pure latestNextSeq

def subscribeStart (auth : AuthContext) (request : SubscribeRequest) : Svc EventCursor := do
  rejectIf (request.filters.any fun filter =>
      filter.tenantScope.any fun tenantScope => tenantScope ≠ request.tenantId)
    ⟨.policy, "tenant_scope_mismatch",
      "subscribe filter tenant_scope must match request tenant_id"⟩
  authorizeSubscription env auth request
  let latestNextSeq ← nextReadEventSeq request.tenantId
  let nextSeq ← ofExcept (startSeq env request latestNextSeq)
  ensureEventCursorWithinWindow request.tenantId nextSeq
  return ⟨request.tenantId, nextSeq⟩

/-- The loop of `read_event_records_after`: `remaining` sequence numbers from `seq` on, until
`batchMax` events have been found. -/
def readEvents (tenantId : TenantId) : (remaining seq batchMax : ℕ) → Svc (List EventRecord)
  | 0, _, _ => pure []
  | _ + 1, _, 0 => pure []
  | remaining + 1, seq, batchMax + 1 => do
    match ← readEncryptedJson (.event tenantId seq) with
    | some event => do
      let rest ← readEvents tenantId remaining (seq + 1) batchMax
      return event :: rest
    | none => readEvents tenantId remaining (seq + 1) (batchMax + 1)

def readEventRecordsAfter (tenantId : TenantId) (nextSeq batchMax : ℕ) :
    Svc (List EventRecord) := do
  let latestNextSeq ← nextReadEventSeq tenantId
  readEvents tenantId (latestNextSeq - nextSeq) nextSeq batchMax

def eventMatchesFilter (event : EventRecord) (filter : SubscribeFilter) : Bool :=
  (match filter.namespacePrefix with
    | none => true
    | some namespacePrefix => event.ns.any (underPrefix (some namespacePrefix))) &&
  (match filter.pathExact with
    | none => true
    | some pathExact => event.path == some pathExact) &&
  (match filter.objectCid with
    | none => true
    | some objectCid => event.cid == some objectCid) &&
  match filter.eventType with
    | none => true
    | some eventType => event.eventType == eventType

def subscribePoll (auth : AuthContext) (request : SubscribeRequest) (cursor : EventCursor) :
    Svc (List SubscribeEnvelope × EventCursor) := do
  let _ ← subscribeStart env auth request
  let events ← readEventRecordsAfter request.tenantId cursor.nextSeq
    (request.batchMax.getD 64).toNat
  let filtered := events.filter fun event =>
    request.filters.isEmpty || request.filters.any (eventMatchesFilter event)
  -- The cursor moves past the last event that passed a filter; the others will be read again.
  let nextCursor : EventCursor :=
    ⟨request.tenantId, (filtered.getLast?.map (·.seq + 1)).getD cursor.nextSeq⟩
  return (if filtered.isEmpty then
      [.notice { kind := "heartbeat", message := none, cursor := some nextCursor.encode }]
    else filtered.map .event, nextCursor)

end Hsp
