import Hsp.Auth.Cose
import Hsp.Service.Store

/-!
# Events, authorization and retries

The parts of the service every operation goes through: the event log, the audit log,
`AlphaService::authorize` with its durable replay record, and the lookup of a stored response.
-/

namespace Hsp

variable (env : Env)

/-- Go on with the result of a pure check. -/
def ofExcept {α : Type} (x : Except ApiError α) : Svc α := ExceptT.mk (.ret x)

@[simp] theorem runE_ofExcept {α : Type} (x : Except ApiError α) (w : World) :
    runE (exec env) (ofExcept x) w = (x, w) := rfl

theorem runE_ofExcept_bind {α β : Type} {env : Env} {a : α} {k : α → Svc β} {w : World} :
    runE (exec env) (ofExcept (.ok a) >>= k) w = runE (exec env) (k a) w := rfl

/-! ### Events and audit records -/

def nextReadEventSeq (tenantId : TenantId) : Svc ℕ := do
  let state ← readEncryptedJson (.eventSequence tenantId)
  return (state.getD ⟨1⟩).nextSeq

def nextEventSeq (tenantId : TenantId) : Svc ℕ := do
  let state ← readEncryptedJson (.eventSequence tenantId)
  let current := (state.getD ⟨1⟩).nextSeq
  writeEncryptedJson (.eventSequence tenantId) ⟨current + 1⟩
  return current

/-- The sequence number the next event is given. -/
def World.nextSeq (w : World) (t : TenantId) : ℕ := ((w.store (.eventSequence t)).getD ⟨1⟩).nextSeq

def appendEvent (tenantId : TenantId) (event : EventRecord) : Svc ℕ := do
  let seq ← nextEventSeq tenantId
  writeEncryptedJson (.event tenantId seq) { event with seq }
  return seq

def writeAudit (tenantId : TenantId) (seq : ℕ) (operation subject : String) : Svc Unit := do
  let atMs ← nowMs
  writeEncryptedJson (.audit tenantId (toString seq ++ "-" ++ cidFromBytes env (utf8 subject)))
    { seq, tenantId, operation, subject, atMs }

/-! ### Authorization -/

/-- `PolicyEngine::authorize`: the clock is read, the claims are checked, and a mutation with a
token identifier is looked up in the replay cache. -/
def policyAuthorize (auth : AuthContext) (req : AuthRequestMeta) :
    Prog storeSig (Except DenialReason AuthorizationDecision) := do
  let now ← Prog.perform (S := storeSig) .now
  match checkClaims now auth req with
  | .error reason => return .error reason
  | .ok () =>
    match auth.claims.jti with
    | none => return .ok ⟨.fresh⟩
    | some jti =>
      if !req.operation.isMutation then return .ok ⟨.fresh⟩
      else
        let status ← Prog.perform (S := storeSig)
          (.observe (replayIdentity req.tenantId jti req.operation req.subject) req.idempotencyKey)
        return status.map .mk

/-- The error of a denied request, after an event about the denial.  A failure to append the event
is ignored. -/
def authorizationDeniedApiError (req : AuthRequestMeta) (reason : DenialReason) : Svc ApiError := do
  let error := denialToApiError reason
  let atMs ← nowMs
  let _ ← Prog.attempt (appendEvent req.tenantId {
    version := 1
    seq := 0
    atMs
    eventType := .authDenied
    subjectKind := "auth"
    ns := req.ns
    path := req.path
    cid := none
    revision := none
    traceId := none
    payload := .ofList [("code", error.code), ("operation", req.operation.asStr)] })
  return error

/-- The request ends with the error of the denial. -/
def deny {α : Type} (req : AuthRequestMeta) (reason : DenialReason) : Svc α := do
  let error ← authorizationDeniedApiError req reason
  throw error

def replayKey (tenantId : TenantId) (jti : String) (operation : OperationName)
    (subject : String) : String :=
  String.ofList (operation.asStr.toList.map Char.toLower) ++ "-" ++
    cidFromBytes env (utf8 (replayIdentity tenantId jti operation subject))

/-- A mutation with a token identifier leaves a durable record of this use of the token; a second
use must be a retry under the same idempotency key. -/
def observeDurableReplay (auth : AuthContext) (req : AuthRequestMeta)
    (decision : AuthorizationDecision) : Svc AuthorizationDecision :=
  if !req.operation.isMutation then pure decision
  else match auth.claims.jti with
    | none => pure decision
    | some jti => do
      let l := Loc.replay req.tenantId (replayKey env req.tenantId jti req.operation req.subject)
      let observedAtMs ← nowMs
      let created ← createEncryptedJson l {
        tenantId := req.tenantId
        jti
        operation := req.operation.asStr
        subject := req.subject
        idempotencyKey := req.idempotencyKey.getD ""
        observedAtMs }
      if created then pure decision
      else match ← readEncryptedJson l with
        | none =>
          throw ⟨.storage, "replay_record_missing",
            "replay record disappeared after create conflict"⟩
        | some existing =>
          if req.idempotencyKey = some existing.idempotencyKey then pure ⟨.idempotentRetry⟩
          else deny req .replayDetected

def authorize (auth : AuthContext) (req : AuthRequestMeta) : Svc AuthorizationDecision := do
  match ← ExceptT.lift (policyAuthorize auth req) with
  | .error reason => deny req reason
  -- What the cache of this process said may still be changed by the record in the store.
  | .ok decision => observeDurableReplay env auth req decision

/-- The response stored for a request that is a retry. -/
def storedResponse (tenantId : TenantId) (op : IdempotentOp) (idempotencyKey : String)
    (persistIdempotency : Bool) (decision : AuthorizationDecision) :
    Svc (Option (IdempotencyRecord op.Response)) :=
  if persistIdempotency ∧ decision.replayStatus = .idempotentRetry then
    readEncryptedJson (.idempotency tenantId op idempotencyKey)
  else pure none

end Hsp
