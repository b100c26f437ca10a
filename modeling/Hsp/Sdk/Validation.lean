import Hsp.Core.Types

/-!
# The checks of the Go client

`sdk/go` decides before a mutation is sent whether the capability allows it, and after a read
whether the response keeps the public profile.  These are the functions of `alpha/validation.go` and
the segment comparison of `security/profile.go`.

An absent text is the empty one in Go, and scopes are texts.
-/

namespace Hsp.Sdk

/-! ### Claims -/

/-- The fields of `protocol.CapabilityClaims` that are looked at. -/
structure CapabilityClaims where
  exp : UInt64
  nbf : Option UInt64
  jti : String
  ops : List String
  tenantId : TenantId
  namespacePrefix : String
  pathPrefix : String
  maxObjectSize : Option UInt64

/-- How serde writes a scope. -/
def scopeText : CapabilityScope → String
  | .read => "read"
  | .write => "write"
  | .bind => "bind"
  | .unbind => "unbind"
  | .list => "list"
  | .subscribe => "subscribe"
  | .pin => "pin"
  | .replicate => "replicate"
  | .adminMetricsRead => "admin-metrics-read"
  | .adminAuditRead => "admin-audit-read"
  | .adminRepair => "admin-repair"
  | .adminKeyRotate => "admin-key-rotate"
  | .adminPolicyWrite => "admin-policy-write"

/-- The claims of a capability, as the client reads them from JSON. -/
def CapabilityClaims.ofJson (claims : Hsp.CapabilityClaims) : CapabilityClaims where
  exp := claims.exp
  nbf := claims.nbf
  jti := claims.jti.getD ""
  ops := claims.ops.map scopeText
  tenantId := claims.tenantId
  namespacePrefix := claims.namespacePrefix.getD ""
  pathPrefix := claims.pathPrefix.getD ""
  maxObjectSize := claims.maxObjectSize

/-! ### Segments -/

/-- The loop of `splitSegments`. -/
def splitLoop : List Char → (parts : List String) → (current : List Char) → List String
  | [], parts, current => parts ++ [String.ofList current]
  | r :: rest, parts, current =>
    if r = '/' then splitLoop rest (parts ++ [String.ofList current]) []
    else splitLoop rest parts (current ++ [r])

/-- The segments of a path.  Nothing is decoded. -/
def splitSegments (path : String) : List String :=
  if path = "" then [""] else splitLoop path.toList [] []

def segmentPrefixMatches (pathPrefix candidate : String) : Bool :=
  let prefixParts := splitSegments pathPrefix
  let candidateParts := splitSegments candidate
  if prefixParts.length > candidateParts.length then false
  else (prefixParts.zip candidateParts).all fun (left, right) => left == right

/-! ### Scopes -/

/-- The one scope that allows an operation. -/
def requiredScope : OperationName → String
  | .info | .head | .get | .resolve => "read"
  | .bind => "bind"
  | .unbind => "unbind"
  | .list => "list"
  | .subscribe => "subscribe"
  | .putInit | .putChunk | .putCommit => "write"

/-- `strings.EqualFold`, on ASCII texts. -/
def equalFold (s t : String) : Bool := s.toList.map Char.toLower == t.toList.map Char.toLower

def hasScope (scopes : List String) (required : String) : Bool :=
  scopes.any fun scope => equalFold scope required

/-! ### Mutations -/

/-- The operations that need a channel binding and a token identifier. -/
def isMutation : OperationName → Bool
  | .putInit | .putChunk | .putCommit | .bind | .unbind => true
  | _ => false

/-- The operations that upload an object. -/
def isUpload : OperationName → Bool
  | .putInit | .putChunk | .putCommit => true
  | _ => false

/-- A text that must be given: a pointer that is not nil to a text that is not empty. -/
def requireText (text : Option String) (error : ApiError) : Except ApiError Unit :=
  if text.getD "" = "" then throw error else pure ()

/-- A scope, unless it is empty, must contain the path. -/
def checkScope (scope : String) (path : Option String) (error : ApiError) :
    Except ApiError Unit :=
  if scope ≠ "" ∧ ¬ path.any (segmentPrefixMatches scope) then throw error else pure ()

/-- `ValidateMutationContext`, when the clock shows `now`. -/
def validateMutationContext (now : ℕ) (claims : CapabilityClaims)
    (binding : Option ChannelBindingProof) (tenantId : TenantId) (operation : OperationName)
    (path : Option String) (contentSize : Option UInt64)
    (keyPolicyId encryptionProfileId idempotencyKey : Option String) : Except ApiError Unit := do
  if claims.exp.toNat < now then
    throw ⟨.auth, "token_expired", "capability token expired"⟩
  if claims.nbf.any (now < ·.toNat) then
    throw ⟨.auth, "token_not_yet_valid", "capability token not yet valid"⟩
  if claims.tenantId ≠ tenantId then
    throw ⟨.auth, "tenant_mismatch", "tenant mismatch"⟩
  if isMutation operation then
    requireText (binding.map (·.proofB64))
      ⟨.auth, "missing_channel_binding", "channel binding proof is required"⟩
    requireText (some claims.jti) ⟨.auth, "missing_jti", "mutation tokens require jti"⟩
  if isUpload operation then
    requireText keyPolicyId ⟨.policy, "missing_key_policy_id", "key_policy_id is required"⟩
    requireText encryptionProfileId
      ⟨.policy, "missing_encryption_profile_id", "encryption_profile_id is required"⟩
    requireText idempotencyKey
      ⟨.validation, "missing_idempotency_key", "idempotency_key is required"⟩
  checkScope claims.pathPrefix path
    ⟨.policy, "path_scope_mismatch", "path is outside capability scope"⟩
  -- The scope of the namespace is compared with the path, too.
  checkScope claims.namespacePrefix path
    ⟨.policy, "namespace_scope_mismatch", "namespace is outside capability scope"⟩
  if claims.maxObjectSize.any fun limit => contentSize.any (limit < ·) then
    throw ⟨.validation, "object_too_large", "object exceeds max_object_size"⟩
  if claims.ops ≠ [] ∧ ¬ hasScope claims.ops (requiredScope operation) then
    throw ⟨.auth, "operation_not_allowed",
      "operation " ++ operation.asStr ++ " is not permitted"⟩

/-! ### Responses -/

def redactionViolation : ApiError :=
  ⟨.validation, "metadata_redaction_violation",
    "encrypted client metadata must remain redacted in public profile"⟩

/-- What `HEAD` and `GET` say about the metadata of an object. -/
def validateObjectMeta (response : ObjectMeta) : Except ApiError Unit :=
  if response.encryptedClientMetadataRedacted = false ∧
      response.metadataVisibility ≠ .serverVisible then .error redactionViolation
  else .ok ()

def validateHeadResponse (response : HeadResponse) : Except ApiError Unit :=
  validateObjectMeta response

def validateGetResponseMeta (response : GetResponseMeta) : Except ApiError Unit :=
  validateObjectMeta response.toObjectMeta

end Hsp.Sdk
