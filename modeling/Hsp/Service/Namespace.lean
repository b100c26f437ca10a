import Hsp.Service.Authorize

/-!
# Namespaces

Binding and unbinding of paths, and the two views of a namespace: the current state, updated in
place, and the journal, replayed up to a revision.
-/

namespace Hsp

variable (env : Env)

def canonicalNamespaceAndPath (ns path : String) : Except ApiError (String × String) :=
  match canonicalPath ns with
  | .error error => .error ⟨.validation, "invalid_namespace", error.display⟩
  | .ok ns =>
    match canonicalPath path with
    | .error error => .error ⟨.validation, "invalid_path", error.display⟩
    | .ok path => .ok (ns, path)

/-! ### The parts of a namespace in the store -/

def NamespaceCurrentState.initial (ns : String) : NamespaceCurrentState := ⟨ns, 0, ∅⟩

def namespaceCurrentState (tenantId : TenantId) (ns : String) : Svc NamespaceCurrentState := do
  let state ← readEncryptedJson (.namespaceCurrent tenantId ns)
  return state.getD (.initial ns)

def writeNamespaceCurrentState (tenantId : TenantId) (ns : String)
    (state : NamespaceCurrentState) : Svc Unit :=
  writeEncryptedJson (.namespaceCurrent tenantId ns) state

def namespaceJournal (tenantId : TenantId) (ns : String) : Svc (List NamespaceJournalEntry) := do
  let journal ← readEncryptedJson (.namespaceJournal tenantId ns)
  return journal.getD []

def appendNamespaceJournal (tenantId : TenantId) (ns : String) (entry : NamespaceJournalEntry) :
    Svc Unit := do
  let journal ← namespaceJournal tenantId ns
  writeEncryptedJson (.namespaceJournal tenantId ns) (journal ++ [entry])

def nextNamespaceRevision (tenantId : TenantId) (ns : String) : Svc ℕ := do
  -- Another request can come between the read and the write.
  let state ← readEncryptedJson (.namespaceRevisions tenantId ns)
  let revision := (state.getD ⟨1⟩).nextRevision
  writeEncryptedJson (.namespaceRevisions tenantId ns) ⟨revision + 1⟩
  return revision

/-- What one journal entry does to the bindings of a snapshot. -/
def NamespaceJournalEntry.replay (bindings : BTreeMap String NamespaceBindingState)
    (entry : NamespaceJournalEntry) : BTreeMap String NamespaceBindingState :=
  if entry.tombstone then
    bindings.insert entry.record.path
      { path := entry.record.path, targetCid := none, manifestCid := none,
        revision := entry.revision, recordCid := entry.recordCid, metadata := entry.metadata,
        tombstone := true }
  else if entry.record.kind = .hardDelete then
    bindings.erase entry.record.path
  else
    bindings.insert entry.record.path
      { path := entry.record.path, targetCid := entry.targetCid, manifestCid := entry.manifestCid,
        revision := entry.revision, recordCid := entry.recordCid, metadata := entry.metadata,
        tombstone := false }

/-- The loop of `namespace_snapshot_at`: it stops at the first entry beyond the limit. -/
def replayJournal (revisionLimit : ℕ) :
    List NamespaceJournalEntry → BTreeMap String NamespaceBindingState →
      BTreeMap String NamespaceBindingState
  | [], bindings => bindings
  | entry :: rest, bindings =>
    if entry.revision > revisionLimit then bindings
    else replayJournal revisionLimit rest (entry.replay bindings)

def namespaceSnapshotAt (tenantId : TenantId) (ns : String) (atRevision : Option ℕ) :
    Svc NamespaceCurrentState :=
  match atRevision with
  | none => namespaceCurrentState tenantId ns
  | some revisionLimit => do
    let journal ← namespaceJournal tenantId ns
    return ⟨ns, revisionLimit, replayJournal revisionLimit journal ∅⟩

def manifestRecord (tenantId : TenantId) (manifestCid : String) : Svc ManifestRecord := do
  match ← readEncryptedJson (.manifests tenantId manifestCid) with
  | some record => pure record
  | none => throw ⟨.notFound, "manifest_not_found", "manifest not found"⟩

theorem runE_manifestRecord_some {env : Env} {t : TenantId} {cid : String} {w : World}
    {record : ManifestRecord} (h : w.store (.manifests t cid) = some record) :
    runE (exec env) (manifestRecord t cid) w = (.ok record, w) := by
  rw [manifestRecord, runE_read_bind, h]
  rfl

theorem runE_manifestRecord_none {env : Env} {t : TenantId} {cid : String} {w : World}
    (h : w.store (.manifests t cid) = none) :
    runE (exec env) (manifestRecord t cid) w =
      (.error ⟨.notFound, "manifest_not_found", "manifest not found"⟩, w) := by
  rw [manifestRecord, runE_read_bind, h]
  rfl

/-! ### Signed records -/

/-- The record a client signed for a mutation, which must say what the request says. -/
def verifySignedRecord (signedRecordB64 : String) (agrees : NamespaceMutationRecord → Bool)
    (mismatch : String) : Except ApiError NamespaceMutationRecord := do
  match env.issuerRegistry with
  | none =>
    throw ⟨.policy, "issuer_registry_missing",
      "signed namespace mutations require an issuer registry"⟩
  | some registry =>
    let record ← verifySignedNamespaceRecord env signedRecordB64 registry
    if !agrees record then
      throw ⟨.auth, "signed_record_mismatch", mismatch⟩
    record.validate
    return record

def verifySignedBindRecord (request : BindRequest) (ns path : String) :
    Except ApiError NamespaceMutationRecord :=
  verifySignedRecord env request.signedRecordB64
    (fun record => record.tenantId = request.tenantId ∧ record.ns = ns ∧ record.path = path ∧
      record.kind = .bind ∧ record.targetCid = some request.targetCid ∧
      record.ifRevision = request.ifRevision ∧ record.ttlMs = request.ttlMs ∧
      record.metadata = request.metadata)
    "signed namespace mutation does not match bind request"

def verifySignedUnbindRecord (request : UnbindRequest) (ns path : String) :
    Except ApiError NamespaceMutationRecord :=
  verifySignedRecord env request.signedRecordB64
    (fun record => record.tenantId = request.tenantId ∧ record.ns = ns ∧ record.path = path ∧
      record.kind = (if request.hardDelete then .hardDelete else .unbind) ∧
      record.ifRevision = some request.ifRevision)
    "signed namespace mutation does not match unbind request"

/-! ### BIND -/

/-- The checks of a bind against what the path holds. -/
def checkBind (request : BindRequest) (existing : Option NamespaceBindingState) :
    Except ApiError Unit := do
  if request.ifAbsent && existing.any (!·.tombstone) then
    throw ⟨.conflict, "revision_conflict", "path is already bound"⟩
  match request.ifRevision with
  | some expectedRevision =>
    -- A path that holds nothing is at revision zero; a tombstone is at its own.
    if (existing.map (·.revision)).getD 0 ≠ expectedRevision.toNat then
      throw ⟨.conflict, "revision_conflict", "namespace revision precondition failed"⟩
  | none => pure ()

/-- The end of `bind_internal`: the audit record, and the response kept for retries. -/
def bindRespond (request : BindRequest) (ns path : String) (persistIdempotency : Bool)
    (response : BindResponse) : Svc BindResponse := do
  writeAudit env request.tenantId response.eventSeq OperationName.bind.asStr (ns ++ ":" ++ path)
  if persistIdempotency then
    writeEncryptedJson (.idempotency request.tenantId .bind request.idempotencyKey) ⟨response⟩
  return response

/-- The part of `bind_internal` after the lookup of a stored response. -/
def bindApply (request : BindRequest) (ns path : String) (signedRecord : NamespaceMutationRecord)
    (persistIdempotency : Bool) : Svc BindResponse := do
  rejectIf (request.ifRevision.isNone ∧ !request.ifAbsent)
    ⟨.conflict, "precondition_required", "BIND requires if_revision or if_absent=true"⟩
  let _ ← manifestRecord request.tenantId request.targetCid
  let current ← namespaceCurrentState request.tenantId ns
  ofExcept (checkBind request current.bindings[path]?)
  -- Three entries change, one after the other: counter, current state, journal.
  let revision ← nextNamespaceRevision request.tenantId ns
  let binding : NamespaceBindingState := {
    path
    targetCid := some request.targetCid
    manifestCid := some request.targetCid
    revision
    recordCid := signedRecord.recordCid env
    metadata := request.metadata
    tombstone := false }
  writeNamespaceCurrentState request.tenantId ns
    { current with revision, bindings := current.bindings.insert path binding }
  appendNamespaceJournal request.tenantId ns {
    revision
    record := signedRecord
    recordCid := binding.recordCid
    targetCid := binding.targetCid
    manifestCid := binding.manifestCid
    metadata := binding.metadata
    tombstone := false }
  let atMs ← nowMs
  let eventSeq ← appendEvent request.tenantId {
    version := 1
    seq := 0
    atMs
    eventType := .namespaceBound
    subjectKind := "namespace"
    ns := some ns
    path := some path
    cid := some request.targetCid
    revision := some revision
    traceId := none
    payload := request.metadata }
  bindRespond env request ns path persistIdempotency
    { revision, recordCid := binding.recordCid, eventSeq }

def bindInternal (auth : AuthContext) (request : BindRequest) (persistIdempotency : Bool) :
    Svc BindResponse := do
  let (ns, path) ← ofExcept (canonicalNamespaceAndPath request.ns request.path)
  let signedRecord ← ofExcept (verifySignedBindRecord env request ns path)
  let decision ← authorize env auth {
    operation := .bind
    tenantId := request.tenantId
    subject := ns ++ ":" ++ path
    ns := some ns
    path := some path
    idempotencyKey := some request.idempotencyKey }
  match ← storedResponse request.tenantId .bind request.idempotencyKey persistIdempotency
      decision with
  | some record => return record.response
  | none => bindApply env request ns path signedRecord persistIdempotency

def bind (auth : AuthContext) (request : BindRequest) : Svc BindResponse :=
  bindInternal env auth request true

/-! ### UNBIND -/

/-- The checks of an unbind against what the path holds. -/
def checkUnbind (request : UnbindRequest) :
    Option NamespaceBindingState → Except ApiError Unit
  | none => .error ⟨.notFound, "path_not_bound", "namespace path is not bound"⟩
  | some existing =>
    if existing.revision ≠ request.ifRevision.toNat then
      .error ⟨.conflict, "revision_conflict", "namespace revision precondition failed"⟩
    else .ok ()

/-- The end of `unbind_internal`: the audit record, and the response kept for retries. -/
def unbindRespond (request : UnbindRequest) (ns path : String) (persistIdempotency : Bool)
    (response : UnbindResponse) : Svc UnbindResponse := do
  writeAudit env request.tenantId response.eventSeq OperationName.unbind.asStr (ns ++ ":" ++ path)
  if persistIdempotency then
    writeEncryptedJson (.idempotency request.tenantId .unbind request.idempotencyKey) ⟨response⟩
  return response

/-- The part of `unbind_internal` after the lookup of a stored response. -/
def unbindApply (request : UnbindRequest) (ns path : String)
    (signedRecord : NamespaceMutationRecord) (persistIdempotency : Bool) : Svc UnbindResponse := do
  let current ← namespaceCurrentState request.tenantId ns
  ofExcept (checkUnbind request current.bindings[path]?)
  let revision ← nextNamespaceRevision request.tenantId ns
  let tombstone := !request.hardDelete
  let bindings :=
    if tombstone then
      current.bindings.insert path {
        path
        targetCid := none
        manifestCid := none
        revision
        recordCid := signedRecord.recordCid env
        metadata := ∅
        tombstone := true }
    -- A hard delete leaves nothing, so the path is at revision zero again.
    else current.bindings.erase path
  writeNamespaceCurrentState request.tenantId ns { current with bindings, revision }
  appendNamespaceJournal request.tenantId ns {
    revision
    record := signedRecord
    recordCid := signedRecord.recordCid env
    targetCid := none
    manifestCid := none
    metadata := ∅
    tombstone }
  let atMs ← nowMs
  let eventSeq ← appendEvent request.tenantId {
    version := 1
    seq := 0
    atMs
    eventType := if tombstone then .namespaceTombstoned else .namespaceUnbound
    subjectKind := "namespace"
    ns := some ns
    path := some path
    cid := none
    revision := some revision
    traceId := none
    payload := ∅ }
  unbindRespond env request ns path persistIdempotency
    { revision, recordCid := signedRecord.recordCid env, eventSeq, tombstone }

def unbindInternal (auth : AuthContext) (request : UnbindRequest) (persistIdempotency : Bool) :
    Svc UnbindResponse := do
  let (ns, path) ← ofExcept (canonicalNamespaceAndPath request.ns request.path)
  let signedRecord ← ofExcept (verifySignedUnbindRecord env request ns path)
  rejectIf (request.hardDelete ∧ CapabilityScope.adminRepair ∉ auth.claims.ops)
    ⟨.policy, "hard_delete_requires_admin", "hard delete requires admin.repair scope"⟩
  let decision ← authorize env auth {
    operation := .unbind
    tenantId := request.tenantId
    subject := ns ++ ":" ++ path
    ns := some ns
    path := some path
    idempotencyKey := some request.idempotencyKey }
  match ← storedResponse request.tenantId .unbind request.idempotencyKey persistIdempotency
      decision with
  | some record => return record.response
  | none => unbindApply env request ns path signedRecord persistIdempotency

def unbind (auth : AuthContext) (request : UnbindRequest) : Svc UnbindResponse :=
  unbindInternal env auth request true

/-! ### Looking up a path -/

/-- What a snapshot says about a path, under an optional precondition on the revision. -/
def resolveBinding (snapshot : NamespaceCurrentState) (path : String)
    (ifRevision : Option UInt64) : Except ApiError ResolveResponse := do
  match snapshot.bindings[path]? with
  | none => throw ⟨.notFound, "path_not_bound", "namespace path is not bound"⟩
  | some binding =>
    match ifRevision with
    | some expectedRevision =>
      if binding.revision ≠ expectedRevision.toNat then
        throw ⟨.conflict, "revision_conflict", "namespace revision precondition failed"⟩
    | none => pure ()
    return {
      revision := binding.revision
      targetCid := binding.targetCid
      manifestCid := binding.manifestCid
      recordCid := binding.recordCid
      metadata := binding.metadata
      tombstone := binding.tombstone }

def resolveSnapshot (tenantId : TenantId) (ns path : String) (atRevision : Option ℕ)
    (ifRevision : Option UInt64) : Svc ResolveResponse := do
  let (ns, path) ← ofExcept (canonicalNamespaceAndPath ns path)
  let snapshot ← namespaceSnapshotAt tenantId ns atRevision
  ofExcept (resolveBinding snapshot path ifRevision)

end Hsp
