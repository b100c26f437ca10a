import Hsp.Distribution.Calls
import Hsp.Sample.Deployment

/-!
# Object locks

While an object is locked, its key must stay bound to it.  The requests that change keys look the
lock up themselves, each under the names it was given, and the calls that carry the change out do
not know about locks.

* `Call.binding_kept` : when a call leaves a key alone;
* `keeps_kept` : a request leaves the key of a locked object alone if its caller may not repair, a
  delete spells the bucket as it is registered, and no upload is answered with an older upload to
  the same key;
* `locked_binding_stays` : so does any sequence of such requests.
-/

namespace Hsp

variable {env : Env} {c : Call} {t : TenantId} {s : Server} {r : Request}

/-- The mutation is about a path. -/
def Mutation.At (m : Mutation env) (t : TenantId) (ns path : String) : Prop :=
  t = m.record.tenantId ∧ ns = m.record.ns ∧ path = m.record.path

/-- **A path that is bound stays as it is**, unless a call asks for a mutation of the path that
names a revision. -/
theorem Call.binding_kept {w : World} {ns path : String} (hlive : isLive (w.binding t ns path))
    (h : ∀ m : Mutation env, c.AsksIn w m → m.At t ns path → m.record.ifRevision = none) :
    (c.perform env w).2.binding t ns path = w.binding t ns path := by
  rcases c.outcome_asks env w with hsame | ⟨m, hasks, hmade⟩
  · exact hsame.binding t ns path
  · rw [hmade.mutates.binding, mutate_binding, if_neg]
    intro hat
    have hnone := h m hasks hat
    obtain ⟨rfl, rfl, rfl⟩ := hat
    exact hmade.admitted.2.1 hnone hlive

/-- The request is answered from the store with a session whose commit binds the path. -/
def PutInitRequest.Resumes (env : Env) (auth : AuthContext) (request : PutInitRequest) (w : World)
    (t : TenantId) (ns path : String) : Prop :=
  (request.keyed env auth).Answered env w ∧ request.tenantId = t ∧
    ∃ record ∈ w.store (.idempotency t .putInit request.idempotencyKey),
      ∃ session ∈ w.store (.sessions t record.response.sessionId),
        ∃ atomicBind ∈ session.atomicBind,
          canonicalNamespaceAndPath atomicBind.ns atomicBind.path = .ok (ns, path)

instance decidableResumes (env : Env) (auth : AuthContext) (request : PutInitRequest) (w : World)
    (t : TenantId) (ns path : String) : Decidable (request.Resumes env auth w t ns path) :=
  have : Decidable ((request.keyed env auth).Answered env w) :=
    inferInstanceAs (Decidable (_ ∧ _))
  inferInstanceAs (Decidable (_ ∧ _))

/-- No commit of the session changes the path while it is bound. -/
def UploadSessionRecord.Spares (env : Env) (session : UploadSessionRecord) (tenantId : TenantId)
    (t : TenantId) (ns path : String) : Prop :=
  ∀ request (m : Mutation env), request.tenantId = tenantId → session.Asks request m →
    m.At t ns path → m.record.ifRevision = none

namespace Distribution

open Prog (Alone)

variable {d : Deployment} {α : Type} {G : Action → Server → Prop} {request : PutObjectRequest}

/-! ### What is assumed about requests -/

/-- The lock forbids changes at a time. -/
def ObjectLockRecord.LockedAt (lock : ObjectLockRecord) (now : ℕ) : Prop :=
  lock.legalHold ∨ ∃ immutableUntil, lock.immutableUntilMs = some immutableUntil ∧
    now < immutableUntil.toNat

/-- The object is locked whenever the clock is read during the request. -/
def LockedDuring (d : Deployment) (t : TenantId) (bucket key : String) (r : Request) (s : Server) :
    Prop :=
  ∃ lock, s.lookup (objectLockSlot t bucket key) = some lock ∧
    lock.LockedAt (d.clock s.alpha.tick) ∧
    ∀ n, s.alpha.tick ≤ n → n < (r.perform d s).2.alpha.tick → lock.LockedAt (d.clock n)

/-- A `PUT_INIT` is not answered with an older upload to the path. -/
def Action.Fresh (d : Deployment) (t : TenantId) (ns path : String) : Action → Server → Prop
  | .call (.putInit auth request), s => ¬ request.Resumes d.toEnv auth s.alpha t ns path
  | _, _ => True

instance decidableFresh (d : Deployment) (t : TenantId) (ns path : String) (o : Action)
    (s : Server) : Decidable (o.Fresh d t ns path s) := by
  unfold Action.Fresh
  split
  · exact inferInstance
  · exact inferInstance

namespace Request

/-- No upload that the request makes is answered with an older upload to the path. -/
def Fresh (d : Deployment) (t : TenantId) (ns path : String) (r : Request) (s : Server) : Prop :=
  Prog.Always (act d) (Action.Fresh d t ns path) (r.handle d).run s

instance (d : Deployment) (t : TenantId) (ns path : String) (r : Request) (s : Server) :
    Decidable (r.Fresh d t ns path s) := Prog.decidableAlways _ _ _ _

/-- A delete in the bucket spells it as it is registered. -/
def Spells (bucket : String) : Request → Prop
  | .deleteObject _ request => canonicalBucketName request.bucket = .ok bucket →
    request.bucket = bucket
  | _ => True

/-- A request that changes objects is made by a caller who may not repair. -/
def Unprivileged (r : Request) : Prop :=
  r.mutates → CapabilityScope.adminRepair ∉ r.auth.claims.ops

end Request

theorem effectiveUpload_tenantId {payload : List UInt8} {upload : List UInt8 × Description}
    {s' : Server} (h : runE (act d) (effectiveUpload d request payload) s = (.ok upload, s')) :
    upload.2.tenantId = request.tenantId := by
  unfold effectiveUpload at h
  split at h
  · cases h
    rfl
  · obtain ⟨_, _, -, h⟩ := runE_bind_eq_ok _ h
    obtain ⟨_, _, -, h⟩ := runE_bind_eq_ok _ h
    obtain ⟨_, _, -, h⟩ := runE_bind_eq_ok _ h
    obtain ⟨_, _, -, h⟩ := runE_bind_eq_ok _ h
    cases h
    rfl

/-! ### What stays while an object is locked -/

/-- The lock of an object and what its key is bound to. -/
structure Kept (t : TenantId) (bucket key : String) (lock : ObjectLockRecord)
    (bound : NamespaceBindingState) (s : Server) : Prop where
  registered : Registered s
  lock : s.lookup (objectLockSlot t bucket key) = some lock
  binding : s.alpha.binding t bucket key = some bound

/-- What is assumed about the actions of a request while an object is locked. -/
def LockGuard (d : Deployment) (t : TenantId) (bucket key : String) (lock : ObjectLockRecord)
    (o : Action) (s : Server) : Prop :=
  o.Fresh d t bucket key s ∧ Shows d lock.LockedAt o s

section Kept

variable {t t' : TenantId} {b k : String} {lock : ObjectLockRecord} {bound : NamespaceBindingState}
  {auth : AuthContext} {x : Dist α} {signed : NamespaceMutationRecord}

/-- Programs that neither write locks nor make calls that change objects. -/
theorem Within.kept_writing {K : List Kind} (h : Within K Call.Inquires x)
    (hK : .objectLock ∉ K ∧ .bucketRegistry ∉ K) :
    Keeps (act d) (Alone G) (Kept t b k lock bound) x :=
  h.keeps fun _ _ hlookup hsame hs =>
    ⟨hs.registered.same fun a ha => hlookup a (ha ▸ hK.2), (hlookup _ hK.1).trans hs.lock,
      (hsame.sameNamespaces.binding t b k).trans hs.binding⟩

theorem Within.kept (h : Within [] Call.Inquires x) :
    Keeps (act d) (Alone G) (Kept t b k lock bound) x := h.kept_writing ⟨nofun, nofun⟩

theorem kept_ofExcept (y : Except ApiError α) :
    Keeps (act d) (Alone G) (Kept t b k lock bound) (ofExcept y) :=
  Within.kept (.ofExcept y)

theorem kept_requireBucket (t' : TenantId) (bucket : String) :
    Triple (act d) (Alone G) (Kept t b k lock bound) (requireBucket t' bucket)
      (fun record s => (canonicalBucketName bucket = .ok record.bucket ∧
        record.ns = record.bucket) ∧ Kept t b k lock bound s)
      fun _ => Kept t b k lock bound := by
  refine .of_ok (Within.kept (.requireBucket t' bucket)) fun s record s' hs hrun => ?_
  obtain ⟨-, name, hname, hrecord⟩ := requireBucket_ok hrun
  obtain ⟨hbucket, hns⟩ := hs.registered _ _ _ hrecord
  exact ⟨hbucket ▸ hname, hns.trans hbucket.symm⟩

theorem refused_ensureObjectMutationUnlocked
    (hadmin : CapabilityScope.adminRepair ∉ auth.claims.ops)
    (hlocked : lock.legalHold ∨ lock.immutableUntilMs.isSome) (deleteOp : Bool) :
    Triple (act d) (Alone (LockGuard d t b k lock)) (Kept t b k lock bound)
      (ensureObjectMutationUnlocked t b k deleteOp auth) (fun _ _ => False)
      fun _ => Kept t b k lock bound := by
  refine .bind (Q := fun found s => found = some lock ∧ Kept t b k lock bound s)
    (triple_read fun s hs => ⟨hs.lock, hs⟩) fun found => .of_fact fun hfound => ?_
  subst hfound
  refine .bind (Q := fun _ s => ¬ lock.legalHold ∧ Kept t b k lock bound s)
    (triple_rejectIf (fun s hs hno => ⟨hno, hs⟩) fun s hs _ => hs) fun _ =>
    .of_fact fun hhold => ?_
  cases huntil : lock.immutableUntilMs with
  | none => simp [hhold, huntil] at hlocked
  | some immutableUntil =>
    refine .bind (Q := fun now s => now < immutableUntil.toNat ∧ Kept t b k lock bound s)
      (triple_nowMs fun s hs hG => ?_) fun now => .of_fact fun hnow =>
      triple_rejectIf (fun _ _ hno => hno ⟨hnow, hadmin⟩) fun s hs _ => hs
    have hshown : lock.LockedAt (d.clock s.alpha.tick) := hG.2 (Nat.lt_succ_self _)
    refine ⟨?_, hs.registered, hs.lock, hs.binding⟩
    rcases hshown with hhold' | ⟨_, huntil', hlt⟩
    · exact absurd hhold' hhold
    · rw [huntil] at huntil'
      cases huntil'
      exact hlt

theorem Kept.call (hlive : bound.tombstone = false) {w' : World}
    {result : Except ApiError c.Response} (hs : Kept t b k lock bound s)
    (hrun : runE (exec d.toEnv) (c.answer d.toEnv) s.alpha = (result, w'))
    (h : ∀ m : Mutation d.toEnv, c.AsksIn s.alpha m → m.At t b k → m.record.ifRevision = none) :
    Kept t b k lock bound { s with alpha := w' } := by
  refine ⟨hs.registered.same fun _ _ => rfl, hs.lock, ?_⟩
  have hbound : isLive (s.alpha.binding t b k) := by
    rw [hs.binding]
    exact hlive
  have hsame := Call.binding_kept hbound h
  rw [Call.perform_eq_answer, hrun] at hsame
  exact hsame.trans hs.binding

theorem kept_call (hlive : bound.tombstone = false) {I : Server → Prop}
    (hI : ∀ s, I s → Kept t b k lock bound s)
    (h : ∀ s (m : Mutation d.toEnv), I s → c.AsksIn s.alpha m → m.At t b k →
      m.record.ifRevision = none) :
    Triple (act d) (Alone G) I (callAlpha c) (fun _ => Kept t b k lock bound)
      fun _ => Kept t b k lock bound := by
  refine triple_callAlpha fun s result w' hs _ hrun => ?_
  have hafter := (hI s hs).call hlive hrun (h s · hs)
  cases result with
  | ok a => exact hafter
  | error e => exact hafter

/-! ### Uploads -/

/-- The revision an upload names, if the object is locked: none, unless it is to another key. -/
theorem kept_overwrittenRevision (hadmin : CapabilityScope.adminRepair ∉ auth.claims.ops)
    (hlocked : lock.legalHold ∨ lock.immutableUntilMs.isSome) {record : BucketRecord}
    (hns : record.ns = record.bucket) (key : String) :
    Triple (act d) (Alone (LockGuard d t b k lock)) (Kept t b k lock bound)
      (overwrittenRevision auth t' record key)
      (fun ifRevision s => (t = t' ∧ b = record.ns ∧ k = key → ifRevision = none) ∧
        Kept t b k lock bound s)
      fun _ => Kept t b k lock bound := by
  refine .bind (Within.kept (.existingObject auth t' (fun _ h => h.inquires) _ key))
    fun existing => ?_
  cases existing with
  | none => exact .pure fun s hs => ⟨fun _ => rfl, hs⟩
  | some resolved =>
    by_cases hplace : t = t' ∧ b = record.ns ∧ k = key
    · obtain ⟨rfl, rfl, rfl⟩ := hplace
      rw [hns]
      exact .bind (refused_ensureObjectMutationUnlocked hadmin hlocked false) fun _ => .of_false
    · exact .bind (Within.kept (.ensureObjectMutationUnlocked auth t' _ key false)) fun _ =>
        .pure fun s hs => ⟨fun h => absurd h hplace, hs⟩

theorem kept_signNamespaceRecord (fields : NamespaceMutationFields) :
    Triple (act d) (Alone G) (Kept t b k lock bound) (signNamespaceRecord d fields)
      (fun token s => (∃ signed : NamespaceMutationRecord,
        signed.toNamespaceMutationFields = fields ∧
          token = Base64.encode (d.namespaceToken signed)) ∧ Kept t b k lock bound s)
      fun _ => Kept t b k lock bound :=
  .of_ok (Within.signNamespaceRecord fields).kept fun _ _ _ _ hrun =>
    (signNamespaceRecord_ok hrun).2

theorem kept_atomicBindFor (ns key manifestCid : String) (ifRevision : Option UInt64)
    (metadata : Metadata) :
    Triple (act d) (Alone G) (Kept t b k lock bound)
      (atomicBindFor d t' ns key manifestCid ifRevision metadata)
      (fun atomicBind s => (∃ signed, atomicBind.signedRecordB64 =
          Base64.encode (d.namespaceToken signed) ∧ signed.tenantId = t' ∧ signed.ns = ns ∧
          signed.path = key ∧ signed.ifRevision = ifRevision) ∧ Kept t b k lock bound s)
      fun _ => Kept t b k lock bound := by
  refine .bind (Within.kept .nowMs) fun _ =>
    .bind (kept_signNamespaceRecord _) fun token => .of_fact ?_
  rintro ⟨signed, hfields, rfl⟩
  exact .pure fun s hs => ⟨⟨signed, rfl, congrArg NamespaceMutationFields.tenantId hfields,
    congrArg NamespaceMutationFields.ns hfields, congrArg NamespaceMutationFields.path hfields,
    congrArg NamespaceMutationFields.ifRevision hfields⟩, hs⟩

/-- A session whose commit leaves the key of the object alone has been opened. -/
structure Opened (d : Deployment) (t : TenantId) (bucket key : String) (lock : ObjectLockRecord)
    (bound : NamespaceBindingState) (tenantId : TenantId) (sessionId : String) (s : Server) : Prop
    extends Kept t bucket key lock bound s where
  spares : ∀ session, s.alpha.store (.sessions tenantId sessionId) = some session →
    session.Spares d.toEnv tenantId t bucket key

theorem opened_putInit (hlive : bound.tombstone = false) {request : PutInitRequest}
    {atomicBind : AtomicBindRequest} (hbind : request.atomicBind = some atomicBind)
    (hsigned : atomicBind.signedRecordB64 = Base64.encode (d.namespaceToken signed))
    (hspares : t = signed.tenantId ∧ b = signed.ns ∧ k = signed.path → signed.ifRevision = none) :
    Triple (act d) (Alone (LockGuard d t b k lock)) (Kept t b k lock bound)
      (callAlpha (.putInit auth request))
      (fun init => Opened d t b k lock bound request.tenantId init.sessionId)
      fun _ => Kept t b k lock bound := by
  refine triple_callAlpha fun s result w' hs hG hrun => ?_
  have hkept := hs.call hlive hrun fun _ h => h.elim
  cases result with
  | error e => exact hkept
  | ok init =>
    refine ⟨hkept, fun session hsession asked m htenant hasks hat => ?_⟩
    obtain ⟨stored, hstored, hcanon, hverify⟩ := hasks
    have htenant' : m.record.tenantId = asked.tenantId :=
      (verifySignedBindRecord_ok hverify).choose_spec.2.1
    rcases putInit_ok hrun with ⟨hanswered, hsame, record, hrecord, rfl⟩ | ⟨-, hid, w₁, -, rfl⟩
    · -- The session is an older one, and it does not commit to the path.
      have ht : request.tenantId = t := htenant.symm.trans (htenant'.symm.trans hat.1.symm)
      refine absurd ⟨hanswered, ht, record, ht ▸ hrecord, session, ?_, stored, hstored, ?_⟩ hG.1
      · rw [← ht, ← hsame _ rfl]
        exact hsession
      · rw [hat.2.1, hat.2.2]
        exact hcanon
    · have hnew : session.atomicBind = request.atomicBind := by
        have hwritten := sessions_opened d.toEnv request init w₁ (.sessions request.tenantId
          init.sessionId) rfl
        rw [hid, World.set_store_self] at hwritten
        rw [hid, hwritten] at hsession
        cases hsession
        rfl
      obtain rfl : stored = atomicBind :=
        Option.some.inj (hstored.symm.trans (hnew.trans hbind))
      have hrecord : m.record = signed := asks_bind_record ⟨hcanon, hverify⟩ hsigned
      rw [hrecord]
      refine hspares ?_
      rw [← hrecord]
      exact hat

section Opened

variable {tenantId : TenantId} {sessionId : String}

theorem Within.opened (h : Within [] Call.Inquires x) :
    Keeps (act d) (Alone G) (Opened d t b k lock bound t' sessionId) x :=
  h.keeps fun _ _ hlookup hsame hs =>
    ⟨⟨hs.registered.same fun a _ => hlookup a List.not_mem_nil,
      (hlookup _ List.not_mem_nil).trans hs.lock,
      (hsame.sameNamespaces.binding t b k).trans hs.binding⟩,
      fun session hsession => hs.spares session ((hsame _ rfl).symm.trans hsession)⟩

theorem opened_putChunk (hlive : bound.tombstone = false) (request : PutChunkRequest)
    (bytes : List UInt8) :
    Keeps (act d) (Alone G) (Opened d t b k lock bound t' sessionId)
      (callAlpha (.putChunk auth request bytes)) := by
  refine triple_callAlpha fun s result w' hs _ hrun => ?_
  have hkept := hs.toKept.call hlive hrun fun _ h => h.elim
  have hspares : ∀ session, w'.store (.sessions t' sessionId) = some session →
      session.Spares d.toEnv t' t b k := by
    intro session hsession
    have hanswer : runE (exec d.toEnv) (putChunk d.toEnv auth request bytes) s.alpha =
      (result, w') := hrun
    rcases runE_putChunk_sessions d.toEnv auth request bytes s.alpha with
      ⟨e, w₁, hrun₁, hsame⟩ | ⟨old, response, w₁, hold, hrun₁, hsame⟩
    · cases hanswer.symm.trans hrun₁
      exact hs.spares session ((hsame _ rfl).symm.trans hsession)
    · cases hanswer.symm.trans hrun₁
      rw [hsame _ rfl] at hsession
      by_cases hsame : request.tenantId = t' ∧ request.sessionId = sessionId
      · -- The note of a chunk does not change what the session asks for.
        obtain ⟨rfl, rfl⟩ := hsame
        rw [World.set_store_self] at hsession
        cases hsession
        exact hs.spares old hold
      · rw [World.set_store_of_ne] at hsession
        · exact hs.spares session hsession
        · intro heq
          injection heq with htenant hid
          exact hsame ⟨htenant.symm, hid.symm⟩
  cases result with
  | ok a => exact ⟨hkept, hspares⟩
  | error e => exact ⟨hkept, hspares⟩

theorem opened_putChunks (hlive : bound.tombstone = false) (chunks : List StagedChunk) :
    Keeps (act d) (Alone G) (Opened d t b k lock bound t' sessionId)
      (putChunks auth tenantId sessionId chunks) := by
  induction chunks with
  | nil => exact .pure _
  | cons chunk chunks ih =>
    exact .bind (.bind (opened_putChunk hlive _ _) fun _ => .pure _) fun _ => ih

theorem opened_putFixedChunk (hlive : bound.tombstone = false) (bytes : List UInt8)
    (cursor : ChunkCursor) :
    Keeps (act d) (Alone G) (Opened d t b k lock bound t' sessionId)
      (putFixedChunk d auth tenantId sessionId bytes cursor) :=
  .bind (opened_putChunk hlive _ bytes) fun _ => (Within.ofExcept _).opened

theorem opened_uploadParts (hlive : bound.tombstone = false) (uploadId : String)
    (parts : List CompletedMultipartPart) (state : List UInt8 × ChunkCursor) :
    Keeps (act d) (Alone G) (Opened d t b k lock bound t' sessionId)
      (uploadParts d auth tenantId uploadId sessionId parts state) := by
  induction parts generalizing state with
  | nil => exact .pure _
  | cons part parts ih =>
    exact .bind (Within.multipartPartCiphertext tenantId uploadId part).opened fun _ =>
      .bind (keeps_fillChunks (opened_putFixedChunk hlive) _ _ _ _) fun _ => ih _

theorem kept_putCommit (hlive : bound.tombstone = false) {request : PutCommitRequest}
    (htenant : request.tenantId = t') (hid : request.sessionId = sessionId) :
    Triple (act d) (Alone G) (Opened d t b k lock bound t' sessionId)
      (callAlpha (.putCommit auth request)) (fun _ => Kept t b k lock bound)
      fun _ => Kept t b k lock bound := by
  subst htenant hid
  refine kept_call hlive (fun s hs => hs.toKept) fun s m hs hasks hat => ?_
  obtain ⟨session, hsession, hasks⟩ := hasks
  exact hs.spares session hsession request m rfl hasks hat

end Opened

/-! ### Requests that change objects -/

section Requests

variable (hlive : bound.tombstone = false)
  (hadmin : CapabilityScope.adminRepair ∉ auth.claims.ops)
  (hlocked : lock.legalHold ∨ lock.immutableUntilMs.isSome)

include hlive

theorem kept_bind {request : BindRequest}
    (hsigned : request.signedRecordB64 = Base64.encode (d.namespaceToken signed))
    (hplace : ¬ (t = signed.tenantId ∧ b = signed.ns ∧ k = signed.path)) :
    Keeps (act d) (Alone G) (Kept t b k lock bound) (callAlpha (.bind auth request)) :=
  kept_call hlive (fun _ hs => hs) fun _ _ _ hasks hat =>
    absurd (asks_bind_record hasks hsigned ▸ hat) hplace

theorem kept_unbind {request : UnbindRequest}
    (hsigned : request.signedRecordB64 = Base64.encode (d.namespaceToken signed))
    (hplace : ¬ (t = signed.tenantId ∧ b = signed.ns ∧ k = signed.path)) :
    Keeps (act d) (Alone G) (Kept t b k lock bound) (callAlpha (.unbind auth request)) :=
  kept_call hlive (fun _ hs => hs) fun _ _ _ hasks hat =>
    absurd (asks_unbind_record hasks hsigned ▸ hat) hplace

include hadmin hlocked

theorem kept_uploadObject {record : BucketRecord} (hns : record.ns = record.bucket) (key : String)
    (ciphertext : List UInt8) {input : Description} (hinput : input.tenantId = request.tenantId) :
    Keeps (act d) (Alone (LockGuard d t b k lock)) (Kept t b k lock bound)
      (uploadObject d auth request record key ciphertext input) := by
  refine Triple.bind (kept_overwrittenRevision hadmin hlocked hns key) fun ifRevision =>
    .of_fact fun hrevision =>
    .bind (Within.kept (.buildManifestFromChunkRefs _ _ _)) fun manifest =>
    .bind (kept_atomicBindFor _ _ _ _ _) fun atomicBind => .of_fact ?_
  rintro ⟨signed, hsigned, ht, hsignedNs, hpath, hif⟩
  refine .bind (opened_putInit hlive rfl hsigned fun h => hif.trans (hrevision
    ⟨h.1.trans ht, h.2.1.trans hsignedNs, h.2.2.trans hpath⟩)) fun init => ?_
  refine .bind ((opened_putChunks hlive _).conseq (fun _ hs => hs) (fun _ _ hs => hs)
    fun _ _ hs => hs.toKept) fun _ => ?_
  exact .bind (kept_putCommit hlive hinput.symm rfl) fun _ => .pure fun _ hs => hs

theorem kept_putObject (request : PutObjectRequest) (payload : List UInt8) :
    Keeps (act d) (Alone (LockGuard d t b k lock)) (Kept t b k lock bound)
      (putObject d auth request payload) := by
  exact Triple.bind (kept_ofExcept _) fun _ => .bind (kept_requireBucket _ _) fun record =>
    .of_fact fun hrecord => .bind (kept_ofExcept _) fun key => .bind (kept_ofExcept _) fun _ =>
    .bind (.of_ok (F := fun upload => upload.2.tenantId = request.tenantId)
      (Within.kept (.effectiveUpload request payload)) fun s upload s' _ hrun =>
        effectiveUpload_tenantId hrun) fun upload => .of_fact fun hinput =>
    .bind (kept_ofExcept _) fun _ => kept_uploadObject hlive hadmin hlocked hrecord.2 key _ hinput

theorem kept_copyObject (request : CopyObjectRequest) :
    Keeps (act d) (Alone (LockGuard d t b k lock)) (Kept t b k lock bound)
      (copyObject d auth request) := by
  refine Triple.bind (kept_requireBucket _ _) fun source => .of_fact fun _ =>
    .bind (kept_requireBucket _ _) fun destination => .of_fact fun hdestination =>
    .bind (kept_ofExcept _) fun sourceKey => .bind (kept_ofExcept _) fun key =>
    .bind (Within.kept (.ensureBucketReadScopeFor auth _ _ _)) fun _ =>
    .bind (kept_ofExcept _) fun _ => .bind (Within.kept
      (.orObjectError (.resolveKey auth _ (fun _ h => h.inquires) _ _))) fun found =>
    .bind (Within.kept (.rejectIf _ _)) fun _ =>
    .bind (Within.kept (.existingObject auth _ (fun _ h => h.inquires) _ _)) fun existing => ?_
  by_cases hplace : t = request.tenantId ∧ b = destination.bucket ∧ k = key
  · obtain ⟨rfl, rfl, rfl⟩ := hplace
    exact .bind (refused_ensureObjectMutationUnlocked hadmin hlocked false) fun _ => .of_false
  · refine .bind (Within.kept (.ensureObjectMutationUnlocked auth _ _ _ _)) fun _ =>
      .bind (Within.kept (.orNotFound _ _ _)) fun targetCid => .bind (Within.kept .nowMs) fun _ =>
      .bind (kept_signNamespaceRecord _) fun token => .of_fact ?_
    rintro ⟨signed, hfields, rfl⟩
    refine .bind (kept_bind hlive rfl fun h => hplace ?_) fun _ => .pure fun _ hs => hs
    rw [hfields] at h
    exact ⟨h.1, h.2.1.trans hdestination.2, h.2.2⟩

theorem kept_deleteObject {request : DeleteObjectRequest}
    (hspells : canonicalBucketName request.bucket = .ok b → request.bucket = b) :
    Keeps (act d) (Alone (LockGuard d t b k lock)) (Kept t b k lock bound)
      (deleteObject d auth request) := by
  refine Triple.bind (kept_requireBucket _ _) fun record => .of_fact fun hrecord =>
    .bind (kept_ofExcept _) fun key => .bind (kept_ofExcept _) fun _ =>
    .bind (Within.kept (.orObjectError (.resolveKey auth _ (fun _ h => h.inquires) _ _)))
    fun resolved => .bind (Within.kept (.rejectIf _ _)) fun _ => ?_
  by_cases hplace : t = request.tenantId ∧ b = record.bucket ∧ k = key
  · obtain ⟨rfl, rfl, rfl⟩ := hplace
    rw [hspells hrecord.1]
    exact .bind (refused_ensureObjectMutationUnlocked hadmin hlocked true) fun _ => .of_false
  · refine .bind (Within.kept (.ensureObjectMutationUnlocked auth _ _ _ _)) fun _ =>
      .bind (Within.kept .nowMs) fun _ => .bind (kept_signNamespaceRecord _) fun token =>
      .of_fact ?_
    rintro ⟨signed, hfields, rfl⟩
    refine .bind (kept_unbind hlive rfl fun h => hplace ?_) fun _ => .pure fun _ hs => hs
    rw [hfields] at h
    exact ⟨h.1, h.2.1.trans hrecord.2, h.2.2⟩

theorem kept_completeMultipartUpload (request : CompleteMultipartUploadRequest) :
    Keeps (act d) (Alone (LockGuard d t b k lock)) (Kept t b k lock bound)
      (completeMultipartUpload d auth request) := by
  refine Triple.bind (Within.kept (.changeUpload auth _ _)) fun session =>
    .bind (kept_ofExcept _) fun _ =>
    .bind (Within.kept (.collectChunkRefs _ _ _)) fun collected =>
    .bind (kept_requireBucket _ _) fun record => .of_fact fun hrecord =>
    .bind (Q := fun announced => Opened d t b k lock bound request.tenantId announced.2.sessionId)
      (.bind (kept_overwrittenRevision hadmin hlocked hrecord.2 session.key) fun ifRevision =>
        .of_fact fun hrevision =>
        .bind (Within.kept (.buildManifestFromChunkRefs _ _ _)) fun manifest =>
        .bind (kept_atomicBindFor _ _ _ _ _) fun atomicBind => .of_fact ?_) fun announced => ?_
  · rintro ⟨signed, hsigned, ht, hns, hpath, hif⟩
    exact .bind (opened_putInit hlive rfl hsigned fun h => hif.trans (hrevision
      ⟨h.1.trans ht, h.2.1.trans hns, h.2.2.trans hpath⟩)) fun init => .pure fun _ hs => hs
  · refine .bind (.bind ((opened_uploadParts hlive _ _ _).conseq (fun _ hs => hs) (fun _ _ hs => hs)
      fun _ _ hs => hs.toKept) fun _ => .bind (Triple.conseq (P := Opened d t b k lock bound
        request.tenantId announced.2.sessionId) (Keeps.ite (.pure _)
        (opened_putFixedChunk hlive _ _)) (fun _ hs => hs) (fun _ _ hs => hs)
        fun _ _ hs => hs.toKept) fun _ => kept_putCommit hlive rfl rfl) fun committed => ?_
    exact .bind (Within.kept_writing (K := [.multipartSessions]) (.writeEncryptedJson (.head _) _)
      (by decide)) fun _ => .bind (Within.kept_writing (K := [.multipartSessions, .multipartParts])
      (.cleanupMultipart _ (.head _) (.tail _ (.head _)) _ _) (by decide)) fun _ =>
      .pure fun _ hs => hs

theorem kept_replicateItems (config : ReplicationConfig) (items : List ObjectListItem)
    (counts : ℕ × ℕ × Option String) :
    Keeps (act d) (Alone (LockGuard d t b k lock)) (Kept t b k lock bound)
      (replicateItems d auth t' config items counts) := by
  induction items generalizing counts with
  | nil => exact .pure _
  | cons item items ih =>
    refine .bind (Within.kept .nowMs) fun _ =>
      .bind (.attempt (kept_copyObject hlive hadmin hlocked _)) fun result => ?_
    cases result with
    | ok _ => exact ih _
    | error _ => exact ih _

theorem kept_runReplicationOnce (sourceBucket : String) :
    Keeps (act d) (Alone (LockGuard d t b k lock)) (Kept t b k lock bound)
      (runReplicationOnce d auth t' sourceBucket) :=
  .bind (kept_ofExcept _) fun _ => .bind (kept_ofExcept _) fun _ =>
    .bind (Within.kept (.handle (d := d) (.getReplicationConfig auth t' _))) fun _ =>
    .bind (.ite (.bind (Within.kept (.listObjects auth (fun _ h => h) _)) fun _ =>
      kept_replicateItems hlive hadmin hlocked _ _ _) (.pure _)) fun _ =>
    .bind (Within.kept .nowMs) fun _ =>
    .bind (Within.kept_writing (K := [.replicationStatus]) (.writeEncryptedJson (.head _) _)
      (by decide)) fun _ => .pure _

end Requests

/-- **A request keeps what the key of a locked object is bound to.** -/
theorem Request.kept (hlive : bound.tombstone = false)
    (hlocked : lock.legalHold ∨ lock.immutableUntilMs.isSome) (hmutates : r.mutates)
    (hprivileged : r.Unprivileged) (hspells : r.Spells b) :
    Keeps (act d) (Alone (LockGuard d t b k lock)) (Kept t b k lock bound) (r.handle d) := by
  have hadmin := hprivileged hmutates
  cases r with
  | putObject auth request payload => exact kept_putObject hlive hadmin hlocked request payload
  | copyObject auth request => exact kept_copyObject hlive hadmin hlocked request
  | deleteObject auth request => exact kept_deleteObject hlive hadmin hlocked hspells
  | completeMultipartUpload auth request =>
    exact kept_completeMultipartUpload hlive hadmin hlocked request
  | runReplicationOnce auth t' bucket => exact kept_runReplicationOnce hlive hadmin hlocked bucket
  | _ => cases hmutates

theorem ObjectLockRecord.LockedAt.locks {now : ℕ} (h : lock.LockedAt now) :
    lock.legalHold ∨ lock.immutableUntilMs.isSome :=
  h.imp_right fun ⟨_, huntil, _⟩ => by rw [huntil]; rfl

theorem Request.binding_perform (hlive : bound.tombstone = false) (hregistered : Registered s)
    (hbound : s.alpha.binding t b k = some bound) (hduring : LockedDuring d t b k r s)
    (hprivileged : r.Unprivileged) (hspells : r.Spells b) (hfresh : r.Fresh d t b k s) :
    (r.perform d s).2.alpha.binding t b k = some bound := by
  by_cases hmutates : r.mutates = true
  · obtain ⟨lock, hlock, hnow, hshows⟩ := hduring
    exact ((Request.kept hlive hnow.locks hmutates hprivileged hspells).run
      ⟨hregistered, hlock, hbound⟩ (hfresh.and (always_shows hshows))).binding
  · have hsame := r.sameOn_perform (d := d) s (Bool.eq_false_iff.2 hmutates)
    exact (hsame.sameNamespaces.binding t b k).trans hbound

end Kept

/-- **Locked objects stay.**  On a server that has served any requests, a key is bound to an
object.  Then a sequence of requests is served, and the object is locked throughout.  Requests that
change objects are made by callers who may not repair, deletes spell the bucket as it is registered,
and no upload is answered with an older upload to the key.  Then the key stays bound as it was. -/
theorem locked_binding_stays (d : Deployment) (history requests : List Request) (t : TenantId)
    (bucket key : String) (bound : NamespaceBindingState)
    (hbound : (runRequests d history .empty).alpha.binding t bucket key = some bound)
    (hlive : bound.tombstone = false)
    (h : EachRequest d (fun r s => LockedDuring d t bucket key r s ∧ r.Unprivileged ∧
      r.Spells bucket ∧ r.Fresh d t bucket key s) requests (runRequests d history .empty)) :
    (runRequests d requests (runRequests d history .empty)).alpha.binding t bucket key =
      some bound :=
  (h.invariant (I := fun s => Registered s ∧ s.alpha.binding t bucket key = some bound)
    (fun r s hr hs => ⟨hs.1.perform r s, Request.binding_perform hlive hs.1 hs.2 hr.1 hr.2.1
      hr.2.2.1 hr.2.2.2⟩) ⟨.runRequests history, hbound⟩).2

end Distribution

namespace Sample

open Hsp.Distribution

/-- A caller who may read and write, but not repair. -/
def writer (jti : String) : AuthContext :=
  { auth jti with claims := { (auth jti).claims with ops := [.read, .write] } }

/-- The records of a run in which a key is bound and then removed. -/
def heldRecords : List NamespaceMutationRecord :=
  [⟨keyRecord "k" .bind (some objectCid) none, fits_bind⟩,
    ⟨keyRecord "k" .unbind none (some 1), fits_unbind⟩]

/-- An object is put and placed under legal hold. -/
def held : List Request :=
  [.createBucket (writer "0") tenant "b", .putObject (writer "1") (putRequest "b" "k" "i") chunk,
    .putObjectLegalHold (writer "2") tenant "b" "k" true]

def heldServer : Server := runRequests (deployment heldRecords [] 0) held .empty

/-- The key of the object, deleted in a bucket with the given spelling. -/
def deleteHeld (bucket : String) : Request := .deleteObject (writer "3") ⟨tenant, bucket, "k", "d"⟩

theorem lockedDuring_of_legalHold {d : Deployment} {bucket key : String}
    (h : (s.lookup (objectLockSlot t bucket key)).any (·.legalHold) = true) :
    LockedDuring d t bucket key r s := by
  cases hlock : s.lookup (objectLockSlot t bucket key) with
  | none =>
    rw [hlock] at h
    cases h
  | some lock =>
    rw [hlock] at h
    exact ⟨lock, hlock, .inl h, fun _ _ _ => .inl h⟩

theorem exists_live {w : World} {ns path : String}
    (h : (w.binding t ns path).map (·.tombstone) = some false) :
    ∃ bound, w.binding t ns path = some bound ∧ bound.tombstone = false :=
  Option.map_eq_some_iff.1 h

/-- An upload to the key of the object. -/
def putHeld : Request := .putObject (writer "4") (putRequest "b" "k" "j") chunk

theorem held_run :
    (heldServer.alpha.binding tenant "b" "k").map (·.tombstone) = some false ∧
      (heldServer.lookup (objectLockSlot tenant "b" "k")).any (·.legalHold) = true ∧
      (deleteHeld "b").Fresh (deployment heldRecords [] 0) tenant "b" "k" heldServer ∧
      (((deleteHeld "b").perform (deployment heldRecords [] 0) heldServer).2.lookup
        (objectLockSlot tenant "b" "k")).any (·.legalHold) = true ∧
      putHeld.Fresh (deployment heldRecords [] 0) tenant "b" "k"
        ((deleteHeld "b").perform (deployment heldRecords [] 0) heldServer).2 ∧
      (deleteHeld "%62").Fresh (deployment heldRecords [] 0) tenant "b" "k" heldServer ∧
      (((deleteHeld "%62").perform (deployment heldRecords [] 0) heldServer).2.alpha.binding tenant
        "b" "k").map (·.tombstone) = some true := by
  decide +kernel

/-- Neither a delete nor an upload gets past the legal hold. -/
theorem held_stays : ∃ bound, heldServer.alpha.binding tenant "b" "k" = some bound ∧
    (runRequests (deployment heldRecords [] 0) [deleteHeld "b", putHeld]
      heldServer).alpha.binding tenant "b" "k" = some bound := by
  obtain ⟨hlive, hlock, hfresh, hlock', hfresh', -⟩ := held_run
  obtain ⟨bound, hbound, hlive⟩ := exists_live hlive
  refine ⟨bound, hbound, locked_binding_stays _ held _ tenant "b" "k" bound hbound hlive ?_⟩
  exact ⟨⟨lockedDuring_of_legalHold hlock, fun _ => by decide, fun _ => rfl, hfresh⟩,
    ⟨lockedDuring_of_legalHold hlock', fun _ => by decide, trivial, hfresh'⟩, trivial⟩

/-- The bucket is spelled in another way, and the object under legal hold is deleted. -/
theorem held_deleted :
    LockedDuring (deployment heldRecords [] 0) tenant "b" "k" (deleteHeld "%62") heldServer ∧
      (deleteHeld "%62").Unprivileged ∧
      (deleteHeld "%62").Fresh (deployment heldRecords [] 0) tenant "b" "k" heldServer ∧
      (heldServer.alpha.binding tenant "b" "k").map (·.tombstone) = some false ∧
      (((deleteHeld "%62").perform (deployment heldRecords [] 0) heldServer).2.alpha.binding tenant
        "b" "k").map (·.tombstone) = some true := by
  obtain ⟨hlive, hlock, -, -, -, hfresh, hdeleted⟩ := held_run
  exact ⟨lockedDuring_of_legalHold hlock, fun _ => by decide, hfresh, hlive, hdeleted⟩

end Sample

end Hsp
