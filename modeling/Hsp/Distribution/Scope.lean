import Hsp.Distribution.Store

/-!
# Who may do what

How the distribution service authenticates a capability, and the checks its operations make on the
caller: the tenant, the scopes, the bucket and key prefixes of the token, the access control lists,
and the lock of an object.
-/

namespace Hsp.Distribution

variable (d : Deployment)

/-! ### Authentication -/

/-- An HTTP request, as far as it is bound to a capability. -/
structure HttpRequestBinding where
  method : String
  rawPath : String
  rawQuery : String
  /-- The value of a header that is there and readable as text. -/
  headers : String → Option String
  body : List UInt8

def requiredHeader (headers : String → Option String) (name : String) : Except ApiError String :=
  match headers name with
  | some value => .ok value
  | none =>
    .error ⟨.auth, "missing_required_header", "required header `" ++ name ++ "` is missing"⟩

/-- Bytes in lowercase hexadecimal. -/
def hexLower (bytes : List UInt8) : String :=
  let digit (n : ℕ) : Char := if n < 10 then Char.ofNat (48 + n) else Char.ofNat (87 + n)
  String.ofList (bytes.flatMap fun b => [digit (b.toNat / 16), digit (b.toNat % 16)])

def hexSha256 (bytes : List UInt8) : String := hexLower (d.sha256 bytes)

def verifyCoseSign1Token (tokenB64 : String) : Except ApiError CapabilityClaims :=
  verifyCoseSign1Payload d.toEnv d.claimsFromReader (fun claims => some claims.iss)
    (fun claims => some claims.aud) tokenB64 d.registry "capability token"

/-- What the proof of a request has to be. -/
def requestProof (binding : HttpRequestBinding) (tokenB64 nonce : String) : String :=
  Base64.encode (d.sha256 (utf8 (tokenB64 ++ "\n" ++ binding.method ++ "\n" ++ binding.rawPath ++
    "\n" ++ binding.rawQuery ++ "\n" ++ hexSha256 d binding.body ++ "\n" ++ nonce)))

def authenticateHspCapability (binding : HttpRequestBinding) : Except ApiError AuthContext := do
  let tokenB64 ← requiredHeader binding.headers "x-hsp-capability"
  let nonce ← requiredHeader binding.headers "x-hsp-request-nonce"
  let proofB64 ← requiredHeader binding.headers "x-hsp-request-proof"
  let claims ← verifyCoseSign1Token d tokenB64
  -- The audience is checked, and the request; the time window of the token is not.
  if claims.aud ≠ d.capabilityAudience then
    throw ⟨.auth, "invalid_token_audience",
      "capability token audience is not allowed for distribution surfaces"⟩
  if proofB64 ≠ requestProof d binding tokenB64 nonce then
    throw ⟨.auth, "invalid_request_binding",
      "request binding proof does not match the canonical request"⟩
  return ⟨claims, some ⟨"request-signature", proofB64, nonce⟩⟩

/-! ### Scopes -/

def hasReadCapability (auth : AuthContext) : Bool :=
  auth.claims.ops.any fun scope => scope == .read || scope == .list || scope == .write

def hasCidReadCapability (auth : AuthContext) : Bool :=
  hasReadCapability auth || auth.claims.ops.any (· == .adminRepair)

def aclAllowsRead (acl : CannedAcl) : Bool := acl == .publicRead || acl == .authenticatedRead

def tenantMismatch : ApiError :=
  ⟨.auth, "tenant_mismatch", "tenant does not match the authenticated principal"⟩

def namespaceScopeMismatch : ApiError :=
  ⟨.policy, "namespace_scope_mismatch", "bucket is outside the authenticated namespace scope"⟩

def pathScopeMismatch : ApiError :=
  ⟨.policy, "path_scope_mismatch", "object key is outside the authenticated path scope"⟩

/-- A scope, if the claims have one, must be matched by a name that is given. -/
def ensureScope (scope name : Option String) (mismatch : ApiError) : Except ApiError Unit :=
  match scope, name with
  | none, _ => .ok ()
  | some _, none => .error mismatch
  | some scope, some name => if segmentPrefixMatches scope name then .ok () else .error mismatch

def ensureBucketScopeMatches (auth : AuthContext) (bucket key : Option String) :
    Except ApiError Unit := do
  ensureScope auth.claims.namespacePrefix bucket namespaceScopeMismatch
  ensureScope auth.claims.pathPrefix key pathScopeMismatch

def ensureTenantMatches (auth : AuthContext) (tenantId : TenantId) : Except ApiError Unit :=
  if auth.claims.tenantId ≠ tenantId then .error tenantMismatch else .ok ()

def ensureBucketMutationScopeFor (auth : AuthContext) (tenantId : TenantId)
    (bucket key : Option String) : Except ApiError Unit := do
  ensureTenantMatches auth tenantId
  if !auth.claims.ops.any fun scope => scope == .write || scope == .bind || scope == .unbind then
    throw ⟨.auth, "operation_not_allowed", "bucket mutation requires write-capable credentials"⟩
  ensureBucketScopeMatches auth bucket key

def ensureBucketReadScope (auth : AuthContext) (tenantId : TenantId) : Except ApiError Unit := do
  ensureTenantMatches auth tenantId
  if !hasReadCapability auth then
    throw ⟨.auth, "operation_not_allowed", "bucket read requires read-capable credentials"⟩
  ensureBucketScopeMatches auth none none

def ensureUnscopedCidReadScope (auth : AuthContext) (tenantId : TenantId) :
    Except ApiError Unit := do
  ensureTenantMatches auth tenantId
  if !hasCidReadCapability auth then
    throw ⟨.auth, "operation_not_allowed", "CID read requires tenant read-capable credentials"⟩
  if auth.claims.namespacePrefix.isSome || auth.claims.pathPrefix.isSome then
    throw ⟨.policy, "cid_scope_requires_binding",
      "CID reads with scoped credentials require a proven bucket/key binding"⟩

/-- Whether the access control list of an object allows reads. -/
def objectAclAllowsRead (tenantId : TenantId) (bucket : String) (key : Option String) :
    Dist Bool :=
  match key with
  | none => pure false
  | some key => do
    let objectAcl ← readEncryptedJson (objectAclSlot tenantId bucket key)
    return objectAcl.any (aclAllowsRead ·.acl)

def ensureBucketReadScopeFor (auth : AuthContext) (tenantId : TenantId) (bucket : String)
    (key : Option String) : Dist Unit := do
  ofExcept (ensureTenantMatches auth tenantId)
  if hasReadCapability auth then ofExcept (ensureBucketScopeMatches auth (some bucket) key)
  else do
    let bucketAcl ← readEncryptedJson (bucketAclSlot tenantId bucket)
    if bucketAcl.any (aclAllowsRead ·.acl) then
      ofExcept (ensureBucketScopeMatches auth (some bucket) key)
    else if ← objectAclAllowsRead tenantId bucket key then
      ofExcept (ensureBucketScopeMatches auth (some bucket) key)
    else throw ⟨.auth, "acl_denied", "read request is blocked by ACL policy"⟩

def validateAccessProfile (accessProfile : AccessProfile) (plaintextRequested : Bool) :
    Except ApiError Unit :=
  match accessProfile with
  | .publicCiphertext =>
    if plaintextRequested then
      .error ⟨.unsupported, "trusted_edge_required",
        "plaintext serving requires trusted-edge-v1 profile"⟩
    else .ok ()
  | .trustedEdgeV1 =>
    if plaintextRequested ∧ !d.plaintextProfileEnabled then
      .error ⟨.policy, "trusted_edge_required",
        "trusted-edge-v1 profile is disabled for this deployment"⟩
    else .ok ()

/-! ### Buckets -/

def bucketRecord (tenantId : TenantId) (bucket : String) : Dist (Option BucketRecord) :=
  readEncryptedJson (bucketSlot tenantId bucket)

/-- Go on with a record that must be there. -/
def orNotFound {α : Type} (record : Option α) (code message : String) : Dist α :=
  match record with
  | some record => pure record
  | none => throw ⟨.notFound, code, message⟩

def requireBucket (tenantId : TenantId) (bucket : String) : Dist BucketRecord := do
  let bucket ← ofExcept (canonicalBucketName bucket)
  let record ← bucketRecord tenantId bucket
  orNotFound record "bucket_not_found" "bucket not found"

/-! ### Locks -/

def requireAdminRepair (auth : AuthContext) (code : String) : Except ApiError Unit :=
  if CapabilityScope.adminRepair ∈ auth.claims.ops then .ok ()
  else .error ⟨.policy, code, "admin.repair scope is required for this lock operation"⟩

/-- `str::eq_ignore_ascii_case`. -/
def eqIgnoreAsciiCase (a b : String) : Bool :=
  a.toList.map Char.toLower == b.toList.map Char.toLower

/-- The retention of a lock is of the mode that cannot be taken back. -/
def ObjectLockRecord.isCompliance (lock : ObjectLockRecord) : Bool :=
  lock.mode.any (eqIgnoreAsciiCase · "compliance")

/-- The checks of a retention update while the current retention is active. -/
def checkRetentionUpdate (current : ObjectLockRecord) (currentUntil : UInt64)
    (newImmutableUntilMs : Option UInt64) (newMode : Option String) (auth : AuthContext) :
    Except ApiError Unit :=
  let shortensOrClears : Bool := newImmutableUntilMs.all (· < currentUntil)
  if !shortensOrClears ∧ current.mode = newMode then .ok ()
  else if current.isCompliance then
    .error ⟨.conflict, "lock_conflict",
      "active compliance retention cannot be shortened or cleared"⟩
  else requireAdminRepair auth "lock_conflict"

def ensureRetentionUpdateAllowed (current : ObjectLockRecord)
    (newImmutableUntilMs : Option UInt64) (newMode : Option String) (auth : AuthContext) :
    Dist Unit :=
  match current.immutableUntilMs with
  | none => pure ()
  | some currentUntil => do
    let now ← nowMs
    if now ≥ currentUntil.toNat then pure ()
    else ofExcept (checkRetentionUpdate current currentUntil newImmutableUntilMs newMode auth)

/-- The checks of a change of an object against its lock. -/
def checkUnlocked (lock : ObjectLockRecord) (deleteOp : Bool) (auth : AuthContext) :
    Dist Unit := do
  rejectIf lock.legalHold ⟨.conflict, "legal_hold_active", "object is under legal hold"⟩
  match lock.immutableUntilMs with
  | none => pure ()
  | some immutableUntil => do
    let now ← nowMs
    -- The mode of the lock is not looked at.
    rejectIf (now < immutableUntil.toNat ∧ CapabilityScope.adminRepair ∉ auth.claims.ops)
      ⟨.conflict, "lock_conflict",
        if deleteOp then "object retention lock blocks delete before immutable-until"
        else "object retention lock blocks overwrite before immutable-until"⟩

def ensureObjectMutationUnlocked (tenantId : TenantId) (bucket key : String) (deleteOp : Bool)
    (auth : AuthContext) : Dist Unit := do
  match ← readEncryptedJson (objectLockSlot tenantId bucket key) with
  | none => pure ()
  | some lock => checkUnlocked lock deleteOp auth

end Hsp.Distribution
