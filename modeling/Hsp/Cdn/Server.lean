import Hsp.Distribution.Request

/-!
# The CDN

The CDN serves objects of a distribution server to principals that authenticate with an edge token,
a capability or a signature.  It keeps what it has read by identifier in a cache, and looks there
before it asks the distribution server, the origin.

An `Edge` is the origin together with the cache.  A request performs the actions of the origin, and
looks up and fills the cache, one at a time.

Signatures of the third kind are a parameter, as is the text form of the claims of an edge token.
The worker that removes cached objects by name is left out: nothing is served from their entries.
-/

namespace Hsp.Cdn

open Hsp.Distribution

/-! ### State and actions -/

structure CachedObject where
  body : List UInt8
  contentType : String
  etag : String
  cacheControl : String
  contentLength : UInt64
  expiresAtMs : ℕ

structure Edge where
  server : Server
  cache : String → Option CachedObject

/-- A read that the origin would be asked for, with who asks. -/
structure Fetch where
  auth : AuthContext
  request : GetObjectRequest

inductive EdgeAction where
  | origin (o : Action)
  /-- Look for an entry that has not expired at a time.  What would be fetched otherwise plays no
  part. -/
  | fresh (fetch : Fetch) (key : String) (now : ℕ)
  | insert (key : String) (entry : CachedObject)

@[reducible] def EdgeAction.Res : EdgeAction → Type
  | .origin o => o.Res
  | .fresh _ _ _ => Option CachedObject
  | .insert _ _ => Unit

@[reducible] def edgeSig : Sig := ⟨EdgeAction, EdgeAction.Res⟩

def Edge.fresh (e : Edge) (key : String) (now : ℕ) : Option CachedObject :=
  (e.cache key).filter fun entry => now ≤ entry.expiresAtMs

def edgeAct (d : Deployment) : (o : EdgeAction) → Edge → o.Res × Edge
  | .origin o, e => ((act d o e.server).1, { e with server := (act d o e.server).2 })
  | .fresh _ key now, e => (e.fresh key now, e)
  | .insert key entry, e => ((), { e with cache := Function.update e.cache key (some entry) })

/-- A fallible piece of request handling at the CDN. -/
abbrev Serve (α : Type) := ExceptT ApiError (Prog edgeSig) α

/-- A program of the origin, as a part of one of the CDN. -/
def originate {α : Type} : Prog serverSig α → Prog edgeSig α
  | .ret a => .ret a
  | .op o k => .op (.origin o) fun r => originate (k r)

/-- Go on with the answer of the origin. -/
def fromOrigin {α : Type} (x : Distribution.Dist α) : Serve α := ExceptT.mk (originate x.run)

/-- Go on with the result of a pure check. -/
def checked {α : Type} (x : Except ApiError α) : Serve α := ExceptT.mk (.ret x)

/-- Read the clock. -/
def clock : Serve ℕ := fromOrigin Distribution.nowMs

def fresh (fetch : Fetch) (key : String) (now : ℕ) : Serve (Option CachedObject) :=
  ExceptT.lift (Prog.perform (S := edgeSig) (.fresh fetch key now))

def insert (key : String) (entry : CachedObject) : Serve Unit :=
  ExceptT.lift (Prog.perform (S := edgeSig) (.insert key entry))

/-! ### Requests and texts -/

/-- A request, with the headers that are there, readable as text or not. -/
structure CdnRequest extends HttpRequestBinding where
  present : String → Bool
  readable : ∀ name, (headers name).isSome → present name

/-- `split_once`. -/
def splitOnce (c : Char) (text : String) : Option (String × String) :=
  if c ∈ text.toList then
    some (.ofList (text.toList.takeWhile (· ≠ c)), .ofList ((text.toList.dropWhile (· ≠ c)).drop 1))
  else none

theorem splitOnce_append {c : Char} {start : String} (h : c ∉ start.toList) (rest : String) :
    splitOnce c (start ++ String.singleton c ++ rest) = some (start, rest) := by
  have hlist : (start ++ String.singleton c ++ rest).toList = start.toList ++ c :: rest.toList := by
    simp
  have hall : ∀ x ∈ start.toList, decide (x ≠ c) := fun x hx =>
    decide_eq_true fun hc => h (hc ▸ hx)
  have htake : (start.toList ++ c :: rest.toList).takeWhile (· ≠ c) = start.toList := by
    rw [List.takeWhile_append_of_pos hall]
    simp
  have hdrop : (start.toList ++ c :: rest.toList).dropWhile (· ≠ c) = c :: rest.toList := by
    rw [List.dropWhile_append_of_pos hall]
    simp
  rw [splitOnce, hlist, if_pos (by simp), htake, hdrop]
  simp

/-- `rsplit_once`. -/
def rsplitOnce (c : Char) (text : String) : Option (String × String) :=
  let reversed := text.toList.reverse
  if c ∈ text.toList then
    some (.ofList ((reversed.dropWhile (· ≠ c)).drop 1).reverse,
      .ofList (reversed.takeWhile (· ≠ c)).reverse)
  else none

/-- `strip_prefix`. -/
def stripStart (start text : String) : Option String :=
  if start.toList.isPrefixOf text.toList then some (.ofList (text.toList.drop start.length))
  else none

/-- The value of a query parameter, the last one if it is repeated. -/
def queryPair (query name : String) : Option String :=
  ((((query.toList.splitOn '&').filter (· ≠ [])).map fun segment =>
    (splitOnce '=' (.ofList segment)).getD (.ofList segment, "")).reverse.find? (·.1 = name)).map
      (·.2)

/-- `u64::from_str`. -/
def parseU64 (text : String) : Option UInt64 :=
  let digits : List Char := match text.toList with
    | '+' :: digits => digits
    | digits => digits
  let value : ℕ := digits.foldl (fun n c => n * 10 + (c.toNat - 48)) 0
  if digits ≠ [] ∧ digits.all Char.isDigit ∧ value < 2 ^ 64 then some (.ofNat value) else none

def invalidRange : ApiError := ⟨.validation, "invalid_range", "Range header is invalid"⟩

def parseRange (headers : String → Option String) : Except ApiError (Option RangeSpec) :=
  match headers "range" with
  | none => .ok none
  | some header =>
    match (stripStart "bytes=" header).bind (splitOnce '-') with
    | none => .error invalidRange
    | some (start, stop) =>
      match parseU64 start, parseU64 stop with
      | some start, some stop => .ok (some ⟨start, stop⟩)
      | _, _ => .error invalidRange

/-! ### Edge tokens -/

structure EdgeTokenClaims where
  tenantId : TenantId
  bucket : Option String
  key : Option String
  cid : Option String
  accessProfile : AccessProfile
  method : String
  exp : UInt64

/-- The platform of a CDN: that of its origin, the signature of edge tokens and their text form, and
what a signed request authenticates as. -/
structure CdnDeployment extends Deployment where
  edgeSignature : String → String
  edgeToJson : EdgeTokenClaims → List UInt8
  edgeFromJson : List UInt8 → Option EdgeTokenClaims
  authenticateSigv4 : ℕ → HttpRequestBinding → Except ApiError AuthContext

variable (d : CdnDeployment)

def mintEdgeToken (claims : EdgeTokenClaims) : String :=
  let payloadB64 := Base64.encode (d.edgeToJson claims)
  payloadB64 ++ "." ++ d.edgeSignature payloadB64

/-- The claims of a token with a valid signature. -/
def signedClaims (token : String) : Except ApiError EdgeTokenClaims := do
  match splitOnce '.' token with
  | none =>
    throw ⟨.auth, "edge_token_malformed", "edge token must contain payload and signature"⟩
  | some (payloadB64, signature) =>
    if d.edgeSignature payloadB64 ≠ signature then
      throw ⟨.auth, "invalid_edge_token", "edge token signature is invalid"⟩
    else match Base64.decode payloadB64 with
      | none =>
        throw ⟨.auth, "invalid_edge_token", "edge token payload is not valid base64url"⟩
      | some payload =>
        match d.edgeFromJson payload with
        | none => throw ⟨.storage, "json_deserialize_failed", "invalid edge token payload"⟩
        | some claims => return claims

def edgeTokenExpired : ApiError := ⟨.auth, "edge_token_expired", "edge token has expired"⟩

def decodeEdgeToken (token : String) : Serve EdgeTokenClaims := do
  let claims ← checked (signedClaims d token)
  let now ← clock
  if now > claims.exp.toNat then throw edgeTokenExpired
  else return claims

/-- Who carries an edge token.  The bucket and the key become prefixes. -/
def edgeAuth (claims : EdgeTokenClaims) (token : String) (now : ℕ) : AuthContext where
  claims := {
    iss := "hsp-cdn"
    sub := "edge"
    aud := "hsp-cdn"
    exp := claims.exp
    nbf := some (.ofNat (now - 1000))
    jti := some (cidFromBytes d.toEnv (utf8 token))
    ops := [.read]
    tenantId := claims.tenantId
    namespacePrefix := claims.bucket
    pathPrefix := claims.key
    maxObjectSize := none
    storageClasses := [defaultStorageClass]
    keyPolicyId := none
    metadataVisibility := none }
  channelBinding := some {
    bindingKind := "edge-token"
    proofB64 := ((rsplitOnce '.' token).map (·.2)).getD ""
    nonce := ((splitOnce '.' token).map (·.1)).getD "" }

def invalidEdgeTokenMethod : ApiError :=
  ⟨.auth, "invalid_edge_token_method", "edge token method does not match the request method"⟩

def authenticateEdgeToken (token method : String) : Serve AuthContext := do
  let claims ← decodeEdgeToken d token
  if !eqIgnoreAsciiCase claims.method method then throw invalidEdgeTokenMethod
  else
    let now ← clock
    return edgeAuth d claims token now

/-- The edge token of a request. -/
def CdnRequest.edgeToken (request : CdnRequest) : Option String :=
  request.headers "x-hsp-edge-token" <|> queryPair request.rawQuery "token"

def authenticateRequest (request : CdnRequest) : Serve AuthContext :=
  match request.edgeToken with
  | some token => authenticateEdgeToken d token request.method
  | none =>
    if request.present "x-hsp-capability" then
      checked (authenticateHspCapability d.toDeployment request.toHttpRequestBinding)
    else if request.present "authorization" ∨
        "X-Amz-Signature=".toList <:+: request.rawQuery.toList then do
      let now ← clock
      checked (d.authenticateSigv4 now request.toHttpRequestBinding)
    else
      throw ⟨.auth, "missing_auth",
        "CDN requests require edge token, HSP capability auth, or SigV4 auth"⟩

/-- The claims of the edge token, which is decoded once more.  A failure counts as no token. -/
def edgeClaims (request : CdnRequest) : Serve (Option EdgeTokenClaims) :=
  match request.edgeToken with
  | none => pure none
  | some token => do
    match ← Prog.attempt (decodeEdgeToken d token) with
    | .ok claims => return some claims
    | .error _ => return none

/-! ### Responses -/

inductive CacheStatus where
  | hit | miss
  deriving DecidableEq

/-- An object that is served.  The other headers of an answer of the origin are those of its
head. -/
structure ObjectResponse where
  etag : String
  contentType : String
  contentLength : ℕ
  cacheControl : String
  cacheStatus : CacheStatus
  head : Option HeadObjectResponse
  contentRange : Option String
  body : List UInt8

inductive Reply where
  | object (response : ObjectResponse)
  | metrics
  | logs

def cachedResponse (method : String) (entry : CachedObject) : ObjectResponse where
  etag := entry.etag
  contentType := entry.contentType
  contentLength := entry.contentLength.toNat
  cacheControl := entry.cacheControl
  cacheStatus := .hit
  head := none
  contentRange := none
  body := if method = "HEAD" then [] else entry.body

def originResponse (method : String) (response : GetObjectResponse) : ObjectResponse where
  etag := response.head.etag
  contentType := response.head.contentType
  contentLength := response.body.length
  cacheControl := response.cacheControl
  cacheStatus := .miss
  head := some response.head
  contentRange := response.contentRange
  body := if method = "HEAD" then [] else response.body

def isCacheable (response : GetObjectResponse) : Bool :=
  !(response.cacheControl.toList.splitOn ',').any fun directive =>
    eqIgnoreAsciiCase
      (.ofList ((directive.dropWhile Char.isWhitespace).reverse.dropWhile
        Char.isWhitespace).reverse)
      "no-store"

def cacheModeSuffix (plaintext : Bool) : String := if plaintext then "plaintext" else "ciphertext"

def cidCacheKey (tenantId : TenantId) (cid : String) (plaintext : Bool) : String :=
  "cid:" ++ tenantId.val ++ ":" ++ cacheModeSuffix plaintext ++ ":" ++ cid

def namespaceCacheKey (tenantId : TenantId) (bucket key : String) (plaintext : Bool) : String :=
  "ns:" ++ tenantId.val ++ ":" ++ cacheModeSuffix plaintext ++ ":" ++ bucket ++ "/" ++ key

/-- The tenant that the worker reads back from a key. -/
def tenantOfKey (key : String) : Option String :=
  if "ns:".toList.isPrefixOf key.toList then
    (splitOnce ':' (.ofList (key.toList.drop 3))).map (·.1)
  else none

def tenantIdsFromCache (keys : List String) : List TenantId :=
  let tenants : BTreeMap String Unit := .unitOfList (keys.filterMap tenantOfKey) compare
  tenants.keys.map TenantId.mk

/-- The entry for an answer of the origin. -/
def cacheEntry (fresh : GetObjectResponse) (now ttl : ℕ) : CachedObject where
  body := fresh.body
  contentType := fresh.head.contentType
  etag := fresh.head.etag
  cacheControl := fresh.cacheControl
  contentLength := fresh.head.contentLength
  expiresAtMs := min (now + ttl * 1000) (2 ^ 64 - 1)

/-- The part of `serve_cached_object` after the cache: the origin is asked, and what it answers is
kept if it may be. -/
def serveFresh (method cacheKey : String) (immutable : Bool) (now : ℕ)
    (fetch : Fetch) : Serve ObjectResponse := do
  let response ← fromOrigin (Distribution.getObject d.toDeployment fetch.auth fetch.request)
  let ttl := if immutable then d.immutableCidTtlSec else d.namespaceTtlSec
  if response.contentRange = none ∧ isCacheable response then do
    insert cacheKey (cacheEntry response now ttl)
    return originResponse method response
  else return originResponse method response

def serveCachedObject (method cacheKey : String) (immutable allowCacheHit : Bool)
    (fetch : Fetch) : Serve ObjectResponse := do
  let now ← clock
  if allowCacheHit then do
    match ← fresh fetch cacheKey now with
    | some entry => return cachedResponse method entry
    | none => serveFresh d method cacheKey immutable now fetch
  else serveFresh d method cacheKey immutable now fetch

/-! ### Routes -/

def invalidEdgeTokenScope (what : String) : ApiError :=
  ⟨.auth, "invalid_edge_token_scope", "edge token is not scoped to the requested " ++ what⟩

/-- The bucket and the key of an edge token, if it has both. -/
def EdgeTokenClaims.binding (claims : EdgeTokenClaims) : Option (String × String) :=
  match claims.bucket, claims.key with
  | some bucket, some key => some (bucket, key)
  | _, _ => none

def preferPlaintext (edgeClaims : Option EdgeTokenClaims) (query : String) : Bool :=
  edgeClaims.any (·.accessProfile == .trustedEdgeV1) && queryPair query "mode" == some "plaintext"

def accessProfileOf (edgeClaims : Option EdgeTokenClaims) : AccessProfile :=
  (edgeClaims.map (·.accessProfile)).getD .publicCiphertext

/-- The read by identifier that the origin is asked for. -/
def cidRequest (auth : AuthContext) (edgeClaims : Option EdgeTokenClaims) (query cid : String)
    (range : Option RangeSpec) : GetObjectRequest where
  tenantId := auth.claims.tenantId
  bucket := (edgeClaims.bind (·.binding)).map (·.1)
  key := (edgeClaims.bind (·.binding)).map (·.2)
  cid := some cid
  accessProfile := accessProfileOf edgeClaims
  preferPlaintext := preferPlaintext edgeClaims query
  range := range
  ifMatch := none
  ifNoneMatch := none

/-- The read by name that the origin is asked for. -/
def nameRequest (auth : AuthContext) (edgeClaims : Option EdgeTokenClaims)
    (query bucket key : String) (range : Option RangeSpec) : GetObjectRequest where
  tenantId := auth.claims.tenantId
  bucket := some bucket
  key := some key
  cid := none
  accessProfile := accessProfileOf edgeClaims
  preferPlaintext := preferPlaintext edgeClaims query
  range := range
  ifMatch := none
  ifNoneMatch := none

/-- The route `/cid/`. -/
def serveCid (auth : AuthContext) (edgeClaims : Option EdgeTokenClaims) (request : CdnRequest)
    (cid : String) : Serve ObjectResponse := do
  if edgeClaims.any (·.cid ≠ some cid) then throw (invalidEdgeTokenScope "CID")
  else
    let range ← checked (parseRange request.headers)
    let get := cidRequest auth edgeClaims request.rawQuery cid range
    serveCachedObject d request.method
      (cidCacheKey auth.claims.tenantId cid (preferPlaintext edgeClaims request.rawQuery)) true
      range.isNone ⟨auth, get⟩

/-- The canonical form of a name that may be absent. -/
def canonicalClaim (canonical : String → Except ApiError String) :
    Option String → Except ApiError (Option String)
  | none => .ok none
  | some name => some <$> canonical name

/-- An edge token must name the bucket and the key. -/
def checkNames (edgeClaims : Option EdgeTokenClaims) (bucket key : String) :
    Except ApiError Unit :=
  match edgeClaims with
  | none => .ok ()
  | some claims => do
    let claimsBucket ← canonicalClaim canonicalBucketName claims.bucket
    let claimsKey ← canonicalClaim canonicalObjectKeyName claims.key
    if claimsBucket ≠ some bucket ∨ claimsKey ≠ some key then
      throw (invalidEdgeTokenScope "bucket/key")

/-- The route `/b/`. -/
def serveName (auth : AuthContext) (edgeClaims : Option EdgeTokenClaims) (request : CdnRequest)
    (raw : String) : Serve ObjectResponse := do
  match splitOnce '/' raw with
  | none =>
    throw ⟨.validation, "invalid_bucket_path",
      "bucket route must use /b/\x7bbucket\x7d/\x7bkey\x7d"⟩
  | some (rawBucket, rawKey) => do
    let bucket ← checked (canonicalBucketName rawBucket)
    let key ← checked (canonicalObjectKeyName rawKey)
    checked (checkNames edgeClaims bucket key)
    let range ← checked (parseRange request.headers)
    let get := nameRequest auth edgeClaims request.rawQuery bucket key range
    serveCachedObject d request.method
      (namespaceCacheKey auth.claims.tenantId bucket key
        (preferPlaintext edgeClaims request.rawQuery)) false false ⟨auth, get⟩

def dispatchRequest (auth : AuthContext) (edgeClaims : Option EdgeTokenClaims)
    (request : CdnRequest) : Serve ObjectResponse :=
  match stripStart "/cid/" request.rawPath with
  | some cid => serveCid d auth edgeClaims request cid
  | none =>
    match stripStart "/b/" request.rawPath with
    | some raw => serveName d auth edgeClaims request raw
    | none => throw ⟨.notFound, "route_not_found", "CDN route not found"⟩

def requireScope (auth : AuthContext) (scope : CapabilityScope) (name : String) :
    Except ApiError Unit :=
  if scope ∈ auth.claims.ops then .ok ()
  else .error ⟨.policy, "missing_required_scope", name ++ " scope is required"⟩

/-- The routes for the operator. -/
def serveAdmin (request : CdnRequest) (scope : CapabilityScope) (name : String) (reply : Reply) :
    Serve Reply := do
  let auth ← authenticateRequest d request
  checked (requireScope auth scope name)
  return reply

/-- The routes for objects. -/
def serveObject (request : CdnRequest) : Serve ObjectResponse := do
  let auth ← authenticateRequest d request
  let claims ← edgeClaims d request
  dispatchRequest d auth claims request

def handleRequest (request : CdnRequest) : Serve Reply := do
  if request.method ≠ "GET" ∧ request.method ≠ "HEAD" then
    throw ⟨.unsupported, "method_not_allowed", "CDN only supports GET and HEAD"⟩
  else if request.body ≠ [] then
    throw ⟨.validation, "invalid_body", "length limit exceeded"⟩
  else if request.method = "GET" ∧ request.rawPath = "/metrics" then
    serveAdmin d request .adminMetricsRead "admin.metrics.read" .metrics
  else if request.method = "GET" ∧ request.rawPath = "/v1/observability/logs" then
    serveAdmin d request .adminAuditRead "admin.audit.read" .logs
  else return .object (← serveObject d request)

end Hsp.Cdn
