import Hsp.Cdn.Server

/-!
# The S3 server

The S3 server authenticates a request by a capability and the proof of the request, by a signature
in the `Authorization` header, or by one in the query.  Then `dispatch_request` chooses requests to
the distribution service by the method, the bucket, the key and the query, and takes their
parameters from the path, the query, the headers and the body.

XML documents and `HMAC` are parameters, and so are the access keys that the store lists.  What is
read from the clock is a sequence of times.  The record that is kept of a presigned request, the
responses, and the routes `/metrics` and `/v1/observability/logs` are left out.
-/

namespace Hsp.S3

open Hsp.Distribution Cdn

/-! ### Headers -/

/-- The headers of a request, with lowercase names.  A value that is not readable as text is
`none`. -/
abbrev HeaderMap := List (String × Option String)

/-- The value of a header that is there and readable as text, the first one if it is repeated. -/
def HeaderMap.text (headers : HeaderMap) (name : String) : Option String :=
  (headers.lookup name).join

def HeaderMap.containsKey (headers : HeaderMap) (name : String) : Bool :=
  (headers.lookup name).isSome

structure S3Request where
  method : String
  rawPath : String
  rawQuery : String
  headers : HeaderMap
  body : List UInt8

def S3Request.binding (r : S3Request) : HttpRequestBinding :=
  ⟨r.method, r.rawPath, r.rawQuery, r.headers.text, r.body⟩

/-! ### The platform -/

structure SigV4AccessKeyRecord where
  accessKeyId : String
  secretAccessKey : String
  tenantId : TenantId
  namespacePrefix : Option String
  pathPrefix : Option String
  maxObjectSize : Option UInt64
  storageClasses : List String
  keyPolicyId : KeyPolicyId
  metadataVisibility : VisibilityMode
  enabled : Bool

/-- The XML documents of requests. -/
structure XmlReader where
  cannedAcl : List UInt8 → Except ApiError String
  lifecycle : TenantId → String → List UInt8 → Except ApiError LifecycleConfig
  website : TenantId → String → List UInt8 → Except ApiError WebsiteConfig
  replication : TenantId → String → List UInt8 → Except ApiError ReplicationConfig
  delete : List UInt8 → Except ApiError (List String)
  /-- `RetainUntilMs` and `Mode`. -/
  retention : List UInt8 → Except ApiError (Option UInt64 × Option String)
  legalHold : List UInt8 → Except ApiError String
  completeMultipartUpload : List UInt8 → Except ApiError (List CompletedMultipartPart)

structure S3Deployment extends Deployment where
  virtualHostSuffix : Option String
  listAllAccessKeys : Except ApiError (List SigV4AccessKeyRecord)
  hmacSha256 : List UInt8 → List UInt8 → List UInt8
  xml : XmlReader

variable (d : S3Deployment)

/-! ### Signatures -/

def maxSigv4ClockSkewMs : ℕ := 5 * 60 * 1000

def maxPresignExpiresSec : ℕ := 7 * 24 * 60 * 60

def invalidSigv4 (message : String) : ApiError := ⟨.auth, "invalid_sigv4", message⟩

def invalidPresign (message : String) : ApiError := ⟨.auth, "invalid_presign", message⟩

/-- `to_ascii_lowercase`. -/
def toAsciiLowercase (text : String) : String := .ofList (text.toList.map Char.toLower)

def splitSignedHeaders (input : String) : List String :=
  ((input.toList.splitOn ';').filter (· ≠ [])).map fun name => toAsciiLowercase (.ofList name)

/-- The access key, the date, the region and the service of a credential. -/
def parseSigv4Credential (credential : String) :
    Except ApiError (String × String × String × String) :=
  match (credential.toList.splitOn '/').map String.ofList with
  | [accessKeyId, date, region, service, "aws4_request"] =>
    .ok (accessKeyId, date, region, service)
  | _ => .error (invalidSigv4 "credential scope is malformed")

structure ParsedSigV4Authorization where
  accessKeyId : String
  date : String
  region : String
  service : String
  credentialScope : String
  signedHeaders : List String
  signature : String

/-- The last of the parts of an `Authorization` header that starts with a name. -/
def lastPart (parts : List String) (start : String) : Option String :=
  parts.reverse.findSome? (stripStart start)

def parseSigv4Authorization (value : String) : Except ApiError ParsedSigV4Authorization := do
  match stripStart "AWS4-HMAC-SHA256 " value with
  | none => throw (invalidSigv4 "authorization header is not AWS4-HMAC-SHA256")
  | some raw =>
    let parts := raw.splitOn ", "
    match lastPart parts "Credential=" with
    | none => throw (invalidSigv4 "authorization header is missing Credential")
    | some credential =>
      let (accessKeyId, date, region, service) ← parseSigv4Credential credential
      match lastPart parts "SignedHeaders=", lastPart parts "Signature=" with
      | none, _ => throw (invalidSigv4 "authorization header is missing SignedHeaders")
      | some _, none => throw (invalidSigv4 "authorization header is missing Signature")
      | some signedHeaders, some signature =>
        return {
          accessKeyId, date, region, service
          credentialScope := date ++ "/" ++ region ++ "/" ++ service ++ "/aws4_request"
          signedHeaders := splitSignedHeaders signedHeaders
          signature }

def sigv4AccessKey (accessKeyId : String) : Except ApiError SigV4AccessKeyRecord := do
  let records ← d.listAllAccessKeys
  match records.find? fun record => record.accessKeyId = accessKeyId ∧ record.enabled with
  | some record => .ok record
  | none => .error (invalidSigv4 "unknown SigV4 access key id")

def daysFromCivil (year month day : ℤ) : ℤ :=
  let year := year - if month ≤ 2 then 1 else 0
  let era := (if year ≥ 0 then year else year - 399).tdiv 400
  let yoe := year - era * 400
  let doy := (153 * (month + if month > 2 then -3 else 9) + 2).tdiv 5 + day - 1
  let doe := yoe * 365 + yoe.tdiv 4 - yoe.tdiv 100 + doy
  era * 146097 + doe - 719468

/-- The days before 1970 are negative, and wrap. -/
def datetimeToEpochMs (year month day hour minute second : UInt64) : UInt64 :=
  let days := daysFromCivil year.toNat month.toNat day.toNat
  (.ofInt days * 86400 + hour * 3600 + minute * 60 + second) * 1000

/-- The number in a part of a date. -/
def datePart (value errorCode : String) (start stop : ℕ) : Except ApiError UInt64 :=
  match parseU64 (.ofList ((value.toList.drop start).take (stop - start))) with
  | some n => .ok n
  | none => .error ⟨.auth, errorCode, "invalid X-Amz-Date format"⟩

/-- Neither the `T` nor the ranges of the numbers are checked. -/
def parseAmzDateWithCode (value errorCode : String) : Except ApiError ℕ := do
  if (utf8 value).length ≠ 16 ∨ value.toList.getLast? ≠ some 'Z' then
    throw ⟨.auth, errorCode, "invalid X-Amz-Date format"⟩
  let year ← datePart value errorCode 0 4
  let month ← datePart value errorCode 4 6
  let day ← datePart value errorCode 6 8
  let hour ← datePart value errorCode 9 11
  let minute ← datePart value errorCode 11 13
  let second ← datePart value errorCode 13 15
  return (datetimeToEpochMs year month day hour minute second).toNat

def ensureSigv4TimeWindow (now issuedAtMs : ℕ) (errorCode requestKind : String) :
    Except ApiError Unit :=
  if issuedAtMs > min (now + maxSigv4ClockSkewMs) (2 ^ 64 - 1) then
    .error ⟨.auth, errorCode,
      requestKind ++ " has a future X-Amz-Date outside the allowed clock skew"⟩
  else if now - issuedAtMs > maxSigv4ClockSkewMs then
    .error ⟨.auth, errorCode, requestKind ++ " is older than the allowed clock skew window"⟩
  else .ok ()

def validateSignedHeaders (signedHeaders : List String) : Except ApiError Unit :=
  if signedHeaders = [] then .error (invalidSigv4 "signed headers list must not be empty")
  else if "host" ∉ signedHeaders then .error (invalidSigv4 "signed headers must include host")
  else if (signedHeaders.zip signedHeaders.tail).any fun (a, b) => b ≤ a then
    .error (invalidSigv4 "signed headers must be lowercase, unique, and sorted")
  else if signedHeaders.any fun header => header = "" ∨ header.toList.any Char.isUpper then
    .error (invalidSigv4 "signed headers must be lowercase and non-empty")
  else .ok ()

def requiredSingleSignedHeader (headers : HeaderMap) (name : String) : Except ApiError String :=
  match headers.filter (·.1 = name) with
  | [] => .error (invalidSigv4 ("missing signed header `" ++ name ++ "`"))
  | [(_, some value)] => .ok value
  | [(_, none)] => .error (invalidSigv4 ("signed header `" ++ name ++ "` is not valid ASCII"))
  | _ :: _ :: _ =>
    .error (invalidSigv4 ("duplicate signed header `" ++ name ++ "` is not allowed"))

/-- The words of a value, with one blank in between. -/
def normalizeHeaderValue (value : String) : String :=
  " ".intercalate (((value.toList.splitOnP Char.isWhitespace).filter (· ≠ [])).map String.ofList)

/-- The loop of `canonical_sigv4_request` over the signed headers. -/
def canonicalHeaders (headers : HeaderMap) : List String → Except ApiError String
  | [] => .ok ""
  | header :: rest => do
    let value ← requiredSingleSignedHeader headers header
    let others ← canonicalHeaders headers rest
    return toAsciiLowercase header ++ ":" ++ normalizeHeaderValue value ++ "\n" ++ others

def canonicalSigv4Request (method rawPath rawQuery : String) (headers : HeaderMap)
    (signedHeaders : List String) (payloadHash : String) : Except ApiError String := do
  validateSignedHeaders signedHeaders
  let canonical ← canonicalHeaders headers signedHeaders
  return method ++ "\n" ++ rawPath ++ "\n" ++ rawQuery ++ "\n" ++ canonical ++ "\n" ++
    ";".intercalate signedHeaders ++ "\n" ++ payloadHash

def sigv4StringToSign (date credentialScope canonicalRequest : String) : String :=
  "AWS4-HMAC-SHA256\n" ++ date ++ "\n" ++ credentialScope ++ "\n" ++
    hexSha256 d.toDeployment (utf8 canonicalRequest)

def sigv4Signature (secretAccessKey date region service stringToSign : String) : String :=
  let kDate := d.hmacSha256 (utf8 ("AWS4" ++ secretAccessKey)) (utf8 date)
  let kRegion := d.hmacSha256 kDate (utf8 region)
  let kService := d.hmacSha256 kRegion (utf8 service)
  let kSigning := d.hmacSha256 kService (utf8 "aws4_request")
  hexLower (d.hmacSha256 kSigning (utf8 stringToSign))

def scopesForHttpMethod (method : String) : List CapabilityScope :=
  if method = "GET" ∨ method = "HEAD" then [.read, .list]
  else if method = "PUT" ∨ method = "POST" ∨ method = "DELETE" then
    [.read, .write, .bind, .unbind, .list]
  else [.read]

def sigv4AuthContext (clock : ℕ → ℕ) (record : SigV4AccessKeyRecord) (method signature : String) :
    AuthContext where
  claims := {
    iss := "sigv4"
    sub := record.accessKeyId
    aud := "hsp-s3"
    exp := .ofNat (min (clock 0 + 60000) (2 ^ 64 - 1))
    nbf := some (.ofNat (clock 1 - 1000))
    jti := some signature
    ops := scopesForHttpMethod method
    tenantId := record.tenantId
    namespacePrefix := record.namespacePrefix
    pathPrefix := record.pathPrefix
    maxObjectSize := record.maxObjectSize
    storageClasses :=
      if record.storageClasses = [] then [defaultStorageClass] else record.storageClasses
    keyPolicyId := some record.keyPolicyId
    metadataVisibility := some record.metadataVisibility }
  channelBinding := some ⟨"sigv4", signature, signature⟩

/-- The hash of the payload that a request with a signed header states. -/
def statedPayloadHash (r : S3Request) : String :=
  (r.headers.text "x-amz-content-sha256").getD (hexSha256 d.toDeployment r.body)

def authenticateHeaderSigv4 (clock : ℕ → ℕ) (r : S3Request) : Except ApiError AuthContext := do
  let authorization ← requiredHeader r.headers.text "authorization"
  let parsed ← parseSigv4Authorization authorization
  let record ← sigv4AccessKey d parsed.accessKeyId
  let requestDate ← requiredHeader r.headers.text "x-amz-date"
  let issuedAt ← parseAmzDateWithCode requestDate "invalid_sigv4"
  ensureSigv4TimeWindow (clock 0) issuedAt "invalid_sigv4" "header-based SigV4 request"
  if (stripStart parsed.date requestDate).isNone then
    throw (invalidSigv4 "x-amz-date does not match credential scope date")
  let payloadHash := statedPayloadHash d r
  if payloadHash ≠ "UNSIGNED-PAYLOAD" ∧ payloadHash ≠ hexSha256 d.toDeployment r.body then
    throw (invalidSigv4 "x-amz-content-sha256 does not match request body")
  let canonical ← canonicalSigv4Request r.method r.rawPath r.rawQuery r.headers
    parsed.signedHeaders payloadHash
  let stringToSign := sigv4StringToSign d requestDate parsed.credentialScope canonical
  if sigv4Signature d record.secretAccessKey parsed.date parsed.region parsed.service
      stringToSign ≠ parsed.signature then
    throw (invalidSigv4 "AWS Signature V4 verification failed")
  return sigv4AuthContext (fun n => clock (n + 1)) record r.method parsed.signature

/-- The loop of `parse_unique_query_pairs`. -/
def insertUniquePairs (errorCode : String) : List (List Char) → BTreeMap String String →
    Except ApiError (BTreeMap String String)
  | [], pairs => .ok pairs
  | segment :: rest, pairs =>
    let (key, value) := (splitOnce '=' (.ofList segment)).getD (.ofList segment, "")
    if pairs.contains key then
      .error ⟨.auth, errorCode, "duplicate query parameter `" ++ key ++ "` is not allowed"⟩
    else insertUniquePairs errorCode rest (pairs.insert key value)

def parseUniqueQueryPairs (input errorCode : String) :
    Except ApiError (BTreeMap String String) :=
  insertUniquePairs errorCode ((input.toList.splitOn '&').filter (· ≠ [])) ∅

def canonicalPresignQuery (params : BTreeMap String String) : String :=
  "&".intercalate ((params.toList.filter (·.1 ≠ "X-Amz-Signature")).map fun (key, value) =>
    key ++ "=" ++ value)

/-- A parameter that a presigned request must have. -/
def presignParam (params : BTreeMap String String) (name message : String) :
    Except ApiError String :=
  match params[name]? with
  | some value => .ok value
  | none => .error (invalidPresign message)

def authenticatePresignedSigv4 (clock : ℕ → ℕ) (r : S3Request) : Except ApiError AuthContext := do
  let params ← parseUniqueQueryPairs r.rawQuery "invalid_presign"
  if params[("X-Amz-Algorithm" : String)]?.getD "" ≠ "AWS4-HMAC-SHA256" then
    throw (invalidPresign "unsupported presign algorithm")
  let credential ← presignParam params "X-Amz-Credential"
    "presigned URL is missing X-Amz-Credential"
  let signedHeaders ← presignParam params "X-Amz-SignedHeaders"
    "presigned URL is missing X-Amz-SignedHeaders"
  let signature ← presignParam params "X-Amz-Signature" "presigned URL is missing X-Amz-Signature"
  let date ← presignParam params "X-Amz-Date" "presigned URL is missing X-Amz-Date"
  match params[("X-Amz-Expires" : String)]?.bind parseU64 with
  | none => throw (invalidPresign "presigned URL has invalid X-Amz-Expires")
  | some expires =>
    if expires.toNat > maxPresignExpiresSec then
      throw (invalidPresign "presigned URL exceeds the maximum allowed expiry window")
    let issuedAt ← parseAmzDateWithCode date "invalid_presign"
    ensureSigv4TimeWindow (clock 0) issuedAt "invalid_presign" "presigned URL"
    if clock 1 > min (issuedAt + expires.toNat * 1000) (2 ^ 64 - 1) then
      throw (invalidPresign "presigned URL has expired")
    let (accessKeyId, dateScope, region, service) ← parseSigv4Credential credential
    let record ← sigv4AccessKey d accessKeyId
    let canonical ← canonicalSigv4Request r.method r.rawPath (canonicalPresignQuery params)
      r.headers (splitSignedHeaders signedHeaders) "UNSIGNED-PAYLOAD"
    let scope := dateScope ++ "/" ++ region ++ "/" ++ service ++ "/aws4_request"
    let stringToSign := sigv4StringToSign d date scope canonical
    let expected := sigv4Signature d record.secretAccessKey dateScope region service stringToSign
    if expected ≠ signature then
      throw (invalidPresign "presigned URL verification failed")
    -- The third reading is for the record that is kept of the request.
    return sigv4AuthContext (fun n => clock (n + 3)) record r.method signature

def authenticateSigv4 (clock : ℕ → ℕ) (r : S3Request) : Except ApiError AuthContext :=
  if "X-Amz-Signature=".toList <:+: r.rawQuery.toList then authenticatePresignedSigv4 d clock r
  else authenticateHeaderSigv4 d clock r

/-! ### The bucket and the key -/

structure ResolvedRoute where
  bucket : Option String
  key : Option String
  deriving DecidableEq

/-- The loop of `trim_end_matches`: it removes a suffix as often as there is one, at most as often
as is said. -/
def trimEnd (suffix : List Char) : ℕ → List Char → List Char
  | 0, text => text
  | n + 1, text =>
    if suffix ≠ [] ∧ suffix.isSuffixOf text then
      trimEnd suffix n (text.take (text.length - suffix.length))
    else text

/-- `trim_end_matches`. -/
def trimEndMatches (suffix text : String) : String :=
  .ofList (trimEnd suffix.toList text.length text.toList)

/-- `trim_start_matches`, for a slash. -/
def trimSlashes (path : String) : String := .ofList (path.toList.dropWhile (· = '/'))

/-- A text that is not empty. -/
def nonEmpty (text : String) : Option String := if text = "" then none else some text

/-- The bucket and the key of a path. -/
def pathRoute (rawPath : String) : ResolvedRoute :=
  let path := trimSlashes rawPath
  if path = "" then ⟨none, none⟩
  else match splitOnce '/' path with
    | some (bucket, key) => ⟨some bucket, nonEmpty key⟩
    | none => ⟨some path, none⟩

/-- The bucket of a virtual host. -/
def hostBucket (suffix : String) (host : Option String) : Option String :=
  match host with
  | some host =>
    if suffix.toList.isSuffixOf host.toList then
      some (trimEndMatches "." (trimEndMatches suffix host))
    else none
  | none => none

def resolveBucketAndKey (r : S3Request) : ResolvedRoute :=
  match d.virtualHostSuffix.bind fun suffix => hostBucket suffix (r.headers.text "host") with
  | some bucket => ⟨some bucket, nonEmpty (trimSlashes r.rawPath)⟩
  | none => pathRoute r.rawPath

/-! ### The headers of operations -/

/-- A header that an operation must have. -/
def operationHeader (headers : HeaderMap) (name : String) : Except ApiError String :=
  match headers.text name with
  | some value => .ok value
  | none =>
    .error ⟨.validation, "missing_required_header", "required header `" ++ name ++ "` is missing"⟩

def parseAccessProfile (headers : HeaderMap) : Except ApiError AccessProfile :=
  let value := (headers.text "x-hsp-access-profile").getD "public-ciphertext"
  if value = "public-ciphertext" then .ok .publicCiphertext
  else if value = "trusted-edge-v1" then .ok .trustedEdgeV1
  else .error ⟨.validation, "invalid_access_profile",
    "x-hsp-access-profile must be public-ciphertext or trusted-edge-v1"⟩

def parsePayloadPlaintext (headers : HeaderMap) : Bool :=
  (headers.text "x-hsp-payload-mode").any (eqIgnoreAsciiCase · "plaintext")

def parseVisibilityMode (value : String) : Except ApiError VisibilityMode :=
  if value = "server_visible" then .ok .serverVisible
  else if value = "encrypted_only" then .ok .encryptedOnly
  else if value = "split" then .ok .split
  else .error ⟨.validation, "invalid_metadata_visibility",
    "x-hsp-metadata-visibility must be server_visible, encrypted_only, or split"⟩

/-- `u32::from_str`. -/
def parseU32 (text : String) : Option UInt32 :=
  (parseU64 text).bind fun n => if n.toNat < 2 ^ 32 then some (.ofNat n.toNat) else none

def parseWrappedObjectKey (headers : HeaderMap) : Except ApiError WrappedObjectKeyRecord := do
  let recipientKeyId ← operationHeader headers "x-hsp-recipient-key-id"
  let wrappingSuite ← operationHeader headers "x-hsp-key-wrapping-suite"
  let wrappedKeyB64 ← operationHeader headers "x-hsp-wrapped-object-key"
  return {
    recipientKeyId, wrappingSuite, wrappedKeyB64
    keyVersion := ((headers.text "x-hsp-wrapped-object-key-version").bind parseU32).getD 1
    encapsulatedKeyB64 := headers.text "x-hsp-encapsulated-key" }

def parseWrappedObjectKeys (headers : HeaderMap) (payloadPlaintext : Bool) :
    Except ApiError (List WrappedObjectKeyRecord) :=
  if headers.containsKey "x-hsp-recipient-key-id" ∧
      headers.containsKey "x-hsp-wrapped-object-key" then
    (fun key => [key]) <$> parseWrappedObjectKey headers
  else if payloadPlaintext then .ok []
  else .error ⟨.validation, "missing_required_header",
    "ciphertext mode requires wrapped object key headers"⟩

/-- The headers that carry metadata. -/
def metadataHeaders (headers : HeaderMap) : HeaderMap :=
  headers.filter fun header => (stripStart "x-amz-meta-" header.1).isSome

def serverVisibleMetadata (headers : HeaderMap) : Metadata :=
  (metadataHeaders headers).foldl (fun metadata header =>
    metadata.insert ((stripStart "x-amz-meta-" header.1).getD "") (header.2.getD "")) ∅

def parsePutObjectRequest (auth : AuthContext) (bucket key : String) (headers : HeaderMap) :
    Except ApiError PutObjectRequest := do
  let payloadPlaintext := parsePayloadPlaintext headers
  let accessProfile ← parseAccessProfile headers
  let encryptionProfileId ← operationHeader headers "x-hsp-encryption-profile-id"
  let keyPolicyId ← operationHeader headers "x-hsp-key-policy-id"
  let visibility ← operationHeader headers "x-hsp-metadata-visibility"
  let metadataVisibility ← parseVisibilityMode visibility
  let wrappedObjectKeys ← parseWrappedObjectKeys headers payloadPlaintext
  return {
    tenantId := auth.claims.tenantId
    bucket, key, accessProfile, payloadPlaintext
    contentType := (headers.text "content-type").getD "application/octet-stream"
    encryptionProfileId := ⟨encryptionProfileId⟩
    keyPolicyId := ⟨keyPolicyId⟩
    metadataVisibility
    contentEncryptionSuite :=
      (headers.text "x-hsp-content-encryption-suite").getD "XChaCha20-Poly1305"
    keyWrappingSuite := (headers.text "x-hsp-key-wrapping-suite").getD "HPKE/X25519"
    wrappedObjectKeys
    serverVisibleMetadata := serverVisibleMetadata headers
    encryptedClientMetadata := ∅
    storageClass := (headers.text "x-hsp-storage-class").getD "hot"
    idempotencyKey := (headers.text "x-hsp-idempotency-key").getD "put-object" }

def parseCreateMultipartRequest (auth : AuthContext) (bucket key : String) (headers : HeaderMap) :
    Except ApiError CreateMultipartUploadRequest := do
  let payloadPlaintext := parsePayloadPlaintext headers
  let accessProfile ← parseAccessProfile headers
  let encryptionProfileId ← operationHeader headers "x-hsp-encryption-profile-id"
  let keyPolicyId ← operationHeader headers "x-hsp-key-policy-id"
  let visibility ← operationHeader headers "x-hsp-metadata-visibility"
  let metadataVisibility ← parseVisibilityMode visibility
  let wrappedObjectKeys ← parseWrappedObjectKeys headers payloadPlaintext
  return {
    tenantId := auth.claims.tenantId
    bucket, key, accessProfile, payloadPlaintext
    contentType := (headers.text "content-type").getD "application/octet-stream"
    encryptionProfileId := ⟨encryptionProfileId⟩
    keyPolicyId := ⟨keyPolicyId⟩
    metadataVisibility
    contentEncryptionSuite :=
      (headers.text "x-hsp-content-encryption-suite").getD "XChaCha20-Poly1305"
    keyWrappingSuite := (headers.text "x-hsp-key-wrapping-suite").getD "HPKE/X25519"
    wrappedObjectKeys
    serverVisibleMetadata := serverVisibleMetadata headers
    encryptedClientMetadata := ∅
    storageClass := (headers.text "x-hsp-storage-class").getD "hot"
    idempotencyKey := (headers.text "x-hsp-idempotency-key").getD "multipart" }

def invalidRangeSyntax (message : String) : ApiError := ⟨.validation, "invalid_range", message⟩

def parseRange (headers : HeaderMap) : Except ApiError (Option RangeSpec) :=
  match headers.text "range" with
  | none => .ok none
  | some header =>
    match stripStart "bytes=" header with
    | none => .error (invalidRangeSyntax "Range header must use bytes=start-end syntax")
    | some raw =>
      match splitOnce '-' raw with
      | none => .error (invalidRangeSyntax "Range header must include start and end")
      | some (start, stop) =>
        match parseU64 start, parseU64 stop with
        | some start, some stop => .ok (some ⟨start, stop⟩)
        | _, _ => .error (invalidRangeSyntax "Range header is invalid")

/-- An entity tag without blanks and quotes around it. -/
def trimEtag (value : String) : String :=
  let trim (p : Char → Bool) (text : List Char) : List Char :=
    ((text.dropWhile p).reverse.dropWhile p).reverse
  .ofList (trim (· = '"') (trim Char.isWhitespace value.toList))

def cannedAclFromStr (value : String) : Except ApiError CannedAcl :=
  if value = "private" then .ok .private
  else if value = "public-read" then .ok .publicRead
  else if value = "authenticated-read" then .ok .authenticatedRead
  else .error ⟨.validation, "acl_denied",
    "supported canned ACL values are private, public-read, authenticated-read"⟩

def parseCannedAcl (headers : HeaderMap) (body : List UInt8) : Except ApiError CannedAcl := do
  match headers.text "x-amz-acl" with
  | some value => cannedAclFromStr value
  | none =>
    if body ≠ [] then
      let value ← d.xml.cannedAcl body
      cannedAclFromStr value
    else return .private

/-- The read that a `GET` of an object asks for. -/
def parseGetObjectRequest (auth : AuthContext) (bucket key : String) (headers : HeaderMap)
    (query : String) : Except ApiError GetObjectRequest := do
  let accessProfile ← parseAccessProfile headers
  let range ← parseRange headers
  return {
    tenantId := auth.claims.tenantId
    bucket := some bucket
    key := some key
    cid := none
    accessProfile
    preferPlaintext :=
      (headers.text "x-hsp-prefer-plaintext").any (eqIgnoreAsciiCase · "true") ||
        queryPair query "mode" == some "plaintext"
    range
    ifMatch := (headers.text "if-match").map trimEtag
    ifNoneMatch := (headers.text "if-none-match").map trimEtag }

/-- The copy that a `PUT` with the header `x-amz-copy-source` asks for. -/
def parseCopyObjectRequest (auth : AuthContext) (bucket key : String) (headers : HeaderMap) :
    Except ApiError CopyObjectRequest :=
  let source := trimSlashes ((headers.text "x-amz-copy-source").getD "")
  match splitOnce '/' source with
  | none => .error ⟨.validation, "invalid_copy_source",
      "x-amz-copy-source must use /bucket/key syntax"⟩
  | some (sourceBucket, sourceKey) =>
    .ok {
      tenantId := auth.claims.tenantId
      sourceBucket, sourceKey
      destinationBucket := bucket
      destinationKey := key
      idempotencyKey := "copy-" ++ cidFromBytes d.toEnv (utf8 source) }

def deleteRequest (auth : AuthContext) (bucket key : String) : DeleteObjectRequest :=
  ⟨auth.claims.tenantId, bucket, key, "delete-" ++ cidFromBytes d.toEnv (utf8 key)⟩

/-! ### Operations -/

def routeNotFound : ApiError := ⟨.notFound, "route_not_found", "S3 route not found"⟩

/-- Whether the query has a parameter. -/
def hasParam (query name : String) : Bool := (queryPair query name).isSome

/-- The routes of a bucket. -/
def dispatchBucket (auth : AuthContext) (r : S3Request) (bucket : String) :
    Except ApiError (List Request) :=
  let t := auth.claims.tenantId
  if r.method = "GET" ∧ hasParam r.rawQuery "acl" then .ok [.getBucketAcl auth t bucket]
  else if r.method = "PUT" ∧ hasParam r.rawQuery "acl" then do
    let acl ← parseCannedAcl d r.headers r.body
    return [.putBucketAcl auth t bucket acl]
  else if r.method = "GET" ∧ hasParam r.rawQuery "lifecycle" then
    .ok [.getLifecycleConfig auth t bucket]
  else if r.method = "PUT" ∧ hasParam r.rawQuery "lifecycle" then do
    let config ← d.xml.lifecycle t bucket r.body
    return [.putLifecycleConfig auth config]
  else if r.method = "DELETE" ∧ hasParam r.rawQuery "lifecycle" then
    .ok [.deleteLifecycleConfig auth t bucket]
  else if r.method = "GET" ∧ hasParam r.rawQuery "website" then
    .ok [.getWebsiteConfig auth t bucket]
  else if r.method = "PUT" ∧ hasParam r.rawQuery "website" then do
    let config ← d.xml.website t bucket r.body
    return [.putWebsiteConfig auth config]
  else if r.method = "DELETE" ∧ hasParam r.rawQuery "website" then
    .ok [.deleteWebsiteConfig auth t bucket]
  else if r.method = "GET" ∧ hasParam r.rawQuery "replication-status" then
    .ok [.getReplicationStatus auth t bucket]
  else if r.method = "POST" ∧ hasParam r.rawQuery "replication-run" then
    .ok [.runReplicationOnce auth t bucket]
  else if r.method = "GET" ∧ hasParam r.rawQuery "replication" then
    .ok [.getReplicationConfig auth t bucket]
  else if r.method = "PUT" ∧ hasParam r.rawQuery "replication" then do
    let config ← d.xml.replication t bucket r.body
    return [.putReplicationConfig auth config]
  else if r.method = "DELETE" ∧ hasParam r.rawQuery "replication" then
    .ok [.deleteReplicationConfig auth t bucket]
  else if r.method = "PUT" then .ok [.createBucket auth t bucket]
  else if r.method = "HEAD" then .ok [.headBucket auth t bucket]
  else if r.method = "DELETE" then .ok [.deleteBucket auth t bucket]
  else if r.method = "GET" ∧ queryPair r.rawQuery "list-type" = some "2" then
    .ok [.listObjects auth {
      tenantId := t
      bucket
      pathPrefix := queryPair r.rawQuery "prefix"
      continuationToken := queryPair r.rawQuery "continuation-token"
      limit := (queryPair r.rawQuery "max-keys").bind parseU32 }]
  else if r.method = "POST" ∧ hasParam r.rawQuery "delete" then do
    let keys ← d.xml.delete r.body
    -- The answers of the deletions are not looked at.
    return keys.map fun key => .deleteObject auth (deleteRequest d auth bucket key)
  else .error routeNotFound

/-- The routes of an object. -/
def dispatchObject (auth : AuthContext) (r : S3Request) (bucket key : String) :
    Except ApiError (List Request) :=
  let t := auth.claims.tenantId
  if r.method = "GET" ∧ hasParam r.rawQuery "acl" then .ok [.getObjectAcl auth t bucket key]
  else if r.method = "PUT" ∧ hasParam r.rawQuery "acl" then do
    let acl ← parseCannedAcl d r.headers r.body
    return [.putObjectAcl auth t bucket key acl]
  else if r.method = "GET" ∧ hasParam r.rawQuery "retention" then
    .ok [.getObjectLock auth t bucket key]
  else if r.method = "PUT" ∧ hasParam r.rawQuery "retention" then do
    let (retainUntilMs, mode) ← d.xml.retention r.body
    return [.putObjectRetention auth t bucket key retainUntilMs mode]
  else if r.method = "GET" ∧ hasParam r.rawQuery "legal-hold" then
    .ok [.getObjectLock auth t bucket key]
  else if r.method = "PUT" ∧ hasParam r.rawQuery "legal-hold" then do
    let status ← d.xml.legalHold r.body
    return [.putObjectLegalHold auth t bucket key (eqIgnoreAsciiCase status "on")]
  else if r.method = "PUT" ∧ r.headers.containsKey "x-amz-copy-source" then do
    let copy ← parseCopyObjectRequest d auth bucket key r.headers
    return [.copyObject auth copy]
  else if r.method = "POST" ∧ hasParam r.rawQuery "uploads" then do
    let request ← parseCreateMultipartRequest auth bucket key r.headers
    return [.createMultipartUpload auth request]
  else if r.method = "PUT" ∧ hasParam r.rawQuery "uploadId" ∧
      hasParam r.rawQuery "partNumber" then
    -- The bucket and the key play no part in an upload.
    match (queryPair r.rawQuery "partNumber").bind parseU32 with
    | some partNumber =>
      .ok [.uploadPart auth ⟨t, (queryPair r.rawQuery "uploadId").getD "", partNumber⟩ r.body]
    | none => .error ⟨.validation, "invalid_part_number",
        "partNumber must be present for UploadPart"⟩
  else if r.method = "POST" ∧ hasParam r.rawQuery "uploadId" then do
    let parts ← d.xml.completeMultipartUpload r.body
    return [.completeMultipartUpload auth ⟨t, (queryPair r.rawQuery "uploadId").getD "", parts⟩]
  else if r.method = "DELETE" ∧ hasParam r.rawQuery "uploadId" then
    .ok [.abortMultipartUpload auth ⟨t, (queryPair r.rawQuery "uploadId").getD ""⟩]
  else if r.method = "PUT" then do
    let request ← parsePutObjectRequest auth bucket key r.headers
    return [.putObject auth request r.body]
  else if r.method = "HEAD" then .ok [.headObject auth ⟨t, bucket, key⟩]
  else if r.method = "GET" then do
    let request ← parseGetObjectRequest auth bucket key r.headers r.rawQuery
    return [.getObject auth request]
  else if r.method = "DELETE" then .ok [.deleteObject auth (deleteRequest d auth bucket key)]
  else .error routeNotFound

/-- The requests that are made to the distribution service. -/
def dispatchRequest (auth : AuthContext) (r : S3Request) (route : ResolvedRoute) :
    Except ApiError (List Request) :=
  match route.bucket, route.key with
  | none, none => if r.method = "GET" then .ok [.listBuckets auth auth.claims.tenantId]
      else .error routeNotFound
  | some bucket, none => dispatchBucket d auth r bucket
  | some bucket, some key => dispatchObject d auth r bucket key
  | none, some _ => .error routeNotFound

/-- What a request to the S3 server asks the distribution service for, on behalf of a principal. -/
def operations (auth : AuthContext) (r : S3Request) : Except ApiError (List Request) :=
  dispatchRequest d auth r (resolveBucketAndKey d r)

end Hsp.S3
