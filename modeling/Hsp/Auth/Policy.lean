import Hsp.Core.Types
import Hsp.Path.Basic

/-!
# The policy engine

The checks `PolicyEngine::authorize` makes on a capability and on what a request asks for, the
replay cache, and how a denial reads as an API error.  The two effects of `authorize`, reading the
clock and updating the replay cache, are performed by the service; what they compute is here.
-/

namespace Hsp

/-- Who makes a request: the claims of their capability and the proof that binds it to the
connection. -/
structure AuthContext where
  claims : CapabilityClaims
  channelBinding : Option ChannelBindingProof
  deriving DecidableEq

inductive ReplayStatus where
  | fresh | idempotentRetry
  deriving DecidableEq, Repr

structure AuthorizationDecision where
  replayStatus : ReplayStatus
  deriving DecidableEq, Repr

/-- What a request asks for, as the policy engine sees it. -/
structure AuthRequestMeta where
  operation : OperationName
  tenantId : TenantId
  subject : String
  ns : Option String := none
  path : Option String := none
  contentSize : Option UInt64 := none
  storageClass : Option String := none
  keyPolicyId : Option KeyPolicyId := none
  encryptionProfileId : Option EncryptionProfileId := none
  metadataVisibility : Option VisibilityMode := none
  idempotencyKey : Option String := none

inductive DenialReason where
  | tenantMismatch | operationNotAllowed | missingChannelBinding | missingJti | missingKeyPolicyId
  | missingEncryptionProfileId | keyPolicyMismatch | metadataVisibilityMismatch
  | namespaceScopeMismatch | pathScopeMismatch | objectTooLarge | storageClassMismatch
  | expiredToken | notYetValid | replayDetected | invalidSignedRecord
  deriving DecidableEq, Repr

namespace DenialReason

def display : DenialReason → String
  | .tenantMismatch => "tenant mismatch"
  | .operationNotAllowed => "operation not allowed"
  | .missingChannelBinding => "missing channel binding"
  | .missingJti => "missing jti"
  | .missingKeyPolicyId => "missing key policy id"
  | .missingEncryptionProfileId => "missing encryption profile id"
  | .keyPolicyMismatch => "key policy mismatch"
  | .metadataVisibilityMismatch => "metadata visibility mismatch"
  | .namespaceScopeMismatch => "namespace scope mismatch"
  | .pathScopeMismatch => "path scope mismatch"
  | .objectTooLarge => "object too large"
  | .storageClassMismatch => "storage class mismatch"
  | .expiredToken => "expired token"
  | .notYetValid => "token not yet valid"
  | .replayDetected => "replay detected"
  | .invalidSignedRecord => "invalid signed record"

def category : DenialReason → ApiErrorCategory
  | .replayDetected => .replay
  | .missingChannelBinding | .missingJti | .tenantMismatch | .operationNotAllowed => .auth
  | .missingKeyPolicyId | .missingEncryptionProfileId | .keyPolicyMismatch
  | .metadataVisibilityMismatch | .namespaceScopeMismatch | .pathScopeMismatch => .policy
  | .objectTooLarge => .validation
  | .storageClassMismatch => .policy
  | .expiredToken | .notYetValid | .invalidSignedRecord => .auth

def code : DenialReason → String
  | .replayDetected => "replay_detected"
  | .missingChannelBinding => "missing_channel_binding"
  | .missingJti => "missing_jti"
  | .tenantMismatch => "tenant_mismatch"
  | .operationNotAllowed => "operation_not_allowed"
  | .missingKeyPolicyId => "missing_key_policy_id"
  | .missingEncryptionProfileId => "missing_encryption_profile_id"
  | .keyPolicyMismatch => "key_policy_mismatch"
  | .metadataVisibilityMismatch => "metadata_visibility_mismatch"
  | .namespaceScopeMismatch => "namespace_scope_mismatch"
  | .pathScopeMismatch => "path_scope_mismatch"
  | .objectTooLarge => "object_too_large"
  | .storageClassMismatch => "storage_class_mismatch"
  | .expiredToken => "token_expired"
  | .notYetValid => "token_not_yet_valid"
  | .invalidSignedRecord => "invalid_signed_record"

end DenialReason

def denialToApiError (reason : DenialReason) : ApiError :=
  ⟨reason.category, reason.code, reason.display⟩

def scopeMatchesOperation (scope : CapabilityScope) : OperationName → Bool
  | .info | .head | .get | .resolve => scope == .read
  | .bind => scope == .bind || scope == .write
  | .unbind => scope == .unbind || scope == .bind || scope == .write
  | .list => scope == .list || scope == .read
  | .subscribe => scope == .subscribe || scope == .read
  | .putInit | .putChunk | .putCommit => scope == .write

def operationRequiresObjectCrypto : OperationName → Bool
  | .putInit | .putChunk | .putCommit => true
  | _ => false

def validateTimeWindow (now : ℕ) (claims : CapabilityClaims) : Except DenialReason Unit := do
  if now > claims.exp.toNat then
    throw .expiredToken
  match claims.nbf with
  | some nbf => if now < nbf.toNat then throw .notYetValid
  | none => pure ()

/-- Two values that are both given must be equal. -/
def checkBoth {α : Type} [DecidableEq α] (expected actual : Option α) (reason : DenialReason) :
    Except DenialReason Unit :=
  match expected, actual with
  | some e, some a => if a ≠ e then throw reason else pure ()
  | _, _ => pure ()

/-- A scope, if the claims have one, must be given and contain what is asked for. -/
def checkScope (scope actual : Option String) (reason : DenialReason) :
    Except DenialReason Unit :=
  match scope, actual with
  | none, _ => pure ()
  | some _, none => throw reason
  | some s, some a => if segmentPrefixMatches s a then pure () else throw reason

/-- `PolicyEngine::authorize` up to the replay cache, at the clock reading `now`. -/
def checkClaims (now : ℕ) (auth : AuthContext) (req : AuthRequestMeta) :
    Except DenialReason Unit := do
  validateTimeWindow now auth.claims
  if auth.claims.tenantId ≠ req.tenantId then
    throw .tenantMismatch
  if !auth.claims.ops.any (scopeMatchesOperation · req.operation) then
    throw .operationNotAllowed
  if req.operation.isMutation && auth.channelBinding.isNone then
    throw .missingChannelBinding
  if operationRequiresObjectCrypto req.operation && req.keyPolicyId.isNone then
    throw .missingKeyPolicyId
  if operationRequiresObjectCrypto req.operation && req.encryptionProfileId.isNone then
    throw .missingEncryptionProfileId
  if req.operation.isMutation && auth.claims.jti.isNone then
    throw .missingJti
  checkBoth auth.claims.keyPolicyId req.keyPolicyId .keyPolicyMismatch
  checkBoth auth.claims.metadataVisibility req.metadataVisibility .metadataVisibilityMismatch
  checkScope auth.claims.pathPrefix req.path .pathScopeMismatch
  checkScope auth.claims.namespacePrefix req.ns .namespaceScopeMismatch
  match auth.claims.maxObjectSize, req.contentSize with
  | some maxObjectSize, some contentSize =>
    if contentSize > maxObjectSize then throw .objectTooLarge
  | _, _ => pure ()
  match req.storageClass with
  | some storageClass =>
    if !auth.claims.storageClasses.isEmpty && !auth.claims.storageClasses.contains storageClass then
      throw .storageClassMismatch
  | none => pure ()

/-- The identity of one use of a token. -/
def replayIdentity (tenantId : TenantId) (jti : String) (operation : OperationName)
    (subject : String) : String :=
  tenantId.val ++ "|" ++ jti ++ "|" ++ operation.asStr ++ "|" ++ subject

/-- The uses of tokens a server has seen, each with its idempotency key. -/
abbrev ReplayCache := String → Option String

/-- The locked part of `ReplayCache::observe`. -/
def ReplayCache.observe (seen : ReplayCache) (replayKey : String)
    (idempotencyKey : Option String) : Except DenialReason ReplayStatus × ReplayCache :=
  match seen replayKey with
  | some existing =>
    (if idempotencyKey = some existing then .ok .idempotentRetry else .error .replayDetected, seen)
  | none => (.ok .fresh, Function.update seen replayKey (some (idempotencyKey.getD "")))

end Hsp
