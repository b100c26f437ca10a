import Hsp.S3.Server
import Hsp.Sample.Deployment

/-!
# What the signature of an S3 request covers

The proof of a capability covers the method, the path, the query and the body of a request, and no
header.  A signature covers the headers it lists.  The S3 server takes the bucket, the source of a
copy, the access control list and the parameters of a write from headers as well, so who knows the
signed values of a request can change what it does.

* `operations_congr` : what a request does depends on the headers that its route reads;
* `tenant_of_accepted` : the signed values determine the tenant;
* `sameEffect_of_agree` : two requests with the same signed values that agree on the headers that
  their route reads do the same;
* `bound_iff` : this, and that a request with a capability can be changed whenever its route reads a
  header;
* `Sample.write_becomes_copy` : the same proof for a write of the body and for a copy of another
  object.
-/

namespace Hsp.S3

open Hsp.Distribution Cdn

/-! ### The headers that a route reads -/

/-- The headers that describe an object that is written. -/
def objectHeaders : List String :=
  ["x-hsp-access-profile", "x-hsp-payload-mode", "content-type", "x-hsp-encryption-profile-id",
    "x-hsp-key-policy-id", "x-hsp-metadata-visibility", "x-hsp-content-encryption-suite",
    "x-hsp-key-wrapping-suite", "x-hsp-storage-class", "x-hsp-idempotency-key",
    "x-hsp-recipient-key-id", "x-hsp-wrapped-object-key", "x-hsp-wrapped-object-key-version",
    "x-hsp-encapsulated-key"]

/-- The headers that describe a read. -/
def readHeaders : List String :=
  ["x-hsp-access-profile", "x-hsp-prefer-plaintext", "range", "if-match", "if-none-match"]

section Routes

variable (method query : String)

/-- The route sets an access control list. -/
def SetsAcl : Prop := method = "PUT" ∧ hasParam query "acl"

/-- The route is about the access control list or the lock of an object. -/
def AboutLock : Prop :=
  hasParam query "acl" ∨ hasParam query "retention" ∨ hasParam query "legal-hold"

/-- The route writes an object, or a part of one. -/
def Writes : Prop := method = "PUT" ∧ ¬ AboutLock query

/-- The route uploads a part, unless it copies an object. -/
def UploadsPart : Prop := hasParam query "uploadId" ∧ hasParam query "partNumber"

/-- The route starts an upload. -/
def StartsUpload : Prop := method = "POST" ∧ hasParam query "uploads"

/-- The route reads an object. -/
def ReadsObject : Prop := method = "GET" ∧ ¬ AboutLock query

instance : Decidable (SetsAcl method query) := inferInstanceAs (Decidable (_ ∧ _))
instance : Decidable (AboutLock query) := inferInstanceAs (Decidable (_ ∨ _ ∨ _))
instance : Decidable (Writes method query) := inferInstanceAs (Decidable (_ ∧ ¬ _))
instance : Decidable (UploadsPart query) := inferInstanceAs (Decidable (_ ∧ _))
instance : Decidable (StartsUpload method query) := inferInstanceAs (Decidable (_ ∧ _))
instance : Decidable (ReadsObject method query) := inferInstanceAs (Decidable (_ ∧ ¬ _))

/-- The route takes the description of an object from the headers. -/
def DescribesObject : Prop := Writes method query ∧ ¬ UploadsPart query ∨ StartsUpload method query

instance : Decidable (DescribesObject method query) := inferInstanceAs (Decidable (_ ∨ _))

end Routes

/-- The names of the headers that a route reads, but for those of metadata. -/
def headersRead (method query : String) (route : ResolvedRoute) : List String :=
  match route.bucket, route.key with
  | some _, none => if SetsAcl method query then ["x-amz-acl"] else []
  | some _, some _ =>
    (if SetsAcl method query then ["x-amz-acl"] else []) ++
    (if Writes method query then ["x-amz-copy-source"] else []) ++
    (if DescribesObject method query then objectHeaders else []) ++
    (if ReadsObject method query then readHeaders else [])
  | none, _ => []

/-- The route reads the headers of metadata, whatever their names. -/
def ReadsMetadata (method query : String) (route : ResolvedRoute) : Prop :=
  route.bucket.isSome ∧ route.key.isSome ∧ DescribesObject method query

/-- The two requests agree on the headers that their route reads. -/
structure Agree (d : S3Deployment) (r₁ r₂ : S3Request) : Prop where
  host : d.virtualHostSuffix.isSome → r₁.headers.lookup "host" = r₂.headers.lookup "host"
  read : ∀ name ∈ headersRead r₁.method r₁.rawQuery (resolveBucketAndKey d r₁),
    r₁.headers.lookup name = r₂.headers.lookup name
  metadata : ReadsMetadata r₁.method r₁.rawQuery (resolveBucketAndKey d r₁) →
    metadataHeaders r₁.headers = metadataHeaders r₂.headers

/-! ### Routes depend on the headers they read -/

section Congruence

variable {d : S3Deployment} {auth : AuthContext} {h₁ h₂ : HeaderMap} {bucket key : String}

theorem text_congr {name : String} (h : h₁.lookup name = h₂.lookup name) :
    h₁.text name = h₂.text name := congrArg Option.join h

theorem containsKey_congr {name : String} (h : h₁.lookup name = h₂.lookup name) :
    h₁.containsKey name = h₂.containsKey name := congrArg Option.isSome h

theorem parseCannedAcl_congr (h : h₁.lookup "x-amz-acl" = h₂.lookup "x-amz-acl")
    (body : List UInt8) : parseCannedAcl d h₁ body = parseCannedAcl d h₂ body := by
  rw [parseCannedAcl, parseCannedAcl, text_congr h]

theorem parseCopyObjectRequest_congr
    (h : h₁.lookup "x-amz-copy-source" = h₂.lookup "x-amz-copy-source") :
    parseCopyObjectRequest d auth bucket key h₁ = parseCopyObjectRequest d auth bucket key h₂ := by
  rw [parseCopyObjectRequest, parseCopyObjectRequest, text_congr h]

theorem parseWrappedObjectKeys_congr (h : ∀ name ∈ objectHeaders, h₁.lookup name = h₂.lookup name)
    (plaintext : Bool) :
    parseWrappedObjectKeys h₁ plaintext = parseWrappedObjectKeys h₂ plaintext := by
  have htext (name : String) (hn : name ∈ objectHeaders) := text_congr (h name hn)
  have hkey (name : String) (hn : name ∈ objectHeaders) := containsKey_congr (h name hn)
  simp only [parseWrappedObjectKeys, parseWrappedObjectKey, operationHeader,
    hkey "x-hsp-recipient-key-id" (by decide), hkey "x-hsp-wrapped-object-key" (by decide),
    htext "x-hsp-recipient-key-id" (by decide), htext "x-hsp-key-wrapping-suite" (by decide),
    htext "x-hsp-wrapped-object-key" (by decide),
    htext "x-hsp-wrapped-object-key-version" (by decide),
    htext "x-hsp-encapsulated-key" (by decide)]

section Described

variable (h : ∀ name ∈ objectHeaders, h₁.lookup name = h₂.lookup name)
  (hmeta : metadataHeaders h₁ = metadataHeaders h₂)

include h hmeta

/-- What describes an object that is put, at once or in parts. -/
theorem parseObjectRequests_congr :
    parsePutObjectRequest auth bucket key h₁ = parsePutObjectRequest auth bucket key h₂ ∧
      parseCreateMultipartRequest auth bucket key h₁ =
        parseCreateMultipartRequest auth bucket key h₂ := by
  have htext (name : String) (hn : name ∈ objectHeaders) := text_congr (h name hn)
  simp only [parsePutObjectRequest, parseCreateMultipartRequest, parsePayloadPlaintext,
    parseAccessProfile, operationHeader, serverVisibleMetadata, hmeta,
    parseWrappedObjectKeys_congr h, htext "x-hsp-payload-mode" (by decide),
    htext "x-hsp-access-profile" (by decide), htext "x-hsp-encryption-profile-id" (by decide),
    htext "x-hsp-key-policy-id" (by decide), htext "x-hsp-metadata-visibility" (by decide),
    htext "content-type" (by decide), htext "x-hsp-content-encryption-suite" (by decide),
    htext "x-hsp-key-wrapping-suite" (by decide), htext "x-hsp-storage-class" (by decide),
    htext "x-hsp-idempotency-key" (by decide), and_self]

end Described

theorem parseGetObjectRequest_congr (h : ∀ name ∈ readHeaders, h₁.lookup name = h₂.lookup name)
    (query : String) :
    parseGetObjectRequest auth bucket key h₁ query =
      parseGetObjectRequest auth bucket key h₂ query := by
  have htext (name : String) (hn : name ∈ readHeaders) := text_congr (h name hn)
  simp only [parseGetObjectRequest, parseAccessProfile, parseRange,
    htext "x-hsp-access-profile" (by decide), htext "x-hsp-prefer-plaintext" (by decide),
    htext "range" (by decide), htext "if-match" (by decide), htext "if-none-match" (by decide)]

variable {method path query : String} {body : List UInt8}

theorem dispatchBucket_congr
    (hacl : SetsAcl method query → h₁.lookup "x-amz-acl" = h₂.lookup "x-amz-acl") :
    dispatchBucket d auth ⟨method, path, query, h₁, body⟩ bucket =
      dispatchBucket d auth ⟨method, path, query, h₂, body⟩ bucket := by
  unfold dispatchBucket
  dsimp only
  refine ite_congr rfl (fun _ => rfl) fun _ => ite_congr rfl (fun h => ?_) fun _ => rfl
  rw [parseCannedAcl_congr (hacl h)]

theorem dispatchObject_congr
    (hacl : SetsAcl method query → h₁.lookup "x-amz-acl" = h₂.lookup "x-amz-acl")
    (hcopy : Writes method query →
      h₁.lookup "x-amz-copy-source" = h₂.lookup "x-amz-copy-source")
    (hobject : DescribesObject method query →
      ∀ name ∈ objectHeaders, h₁.lookup name = h₂.lookup name)
    (hmeta : DescribesObject method query → metadataHeaders h₁ = metadataHeaders h₂)
    (hread : ReadsObject method query → ∀ name ∈ readHeaders, h₁.lookup name = h₂.lookup name) :
    dispatchObject d auth ⟨method, path, query, h₁, body⟩ bucket key =
      dispatchObject d auth ⟨method, path, query, h₂, body⟩ bucket key := by
  unfold dispatchObject
  dsimp only
  -- The conditions of the branches that are not taken tell what the route is.
  refine ite_congr rfl (fun _ => rfl) fun hget₁ => ite_congr rfl (fun h => ?_) fun hput₁ =>
    ite_congr rfl (fun _ => rfl) fun hget₂ => ite_congr rfl (fun _ => rfl) fun hput₂ =>
    ite_congr rfl (fun _ => rfl) fun hget₃ => ite_congr rfl (fun _ => rfl) fun hput₃ => ?_
  · rw [parseCannedAcl_congr (hacl h)]
  have hwrites (h : method = "PUT") : Writes method query := by
    refine ⟨h, ?_⟩
    rintro (ha | ha | ha)
    exacts [hput₁ ⟨h, ha⟩, hput₂ ⟨h, ha⟩, hput₃ ⟨h, ha⟩]
  have hreads (h : method = "GET") : ReadsObject method query := by
    refine ⟨h, ?_⟩
    rintro (ha | ha | ha)
    exacts [hget₁ ⟨h, ha⟩, hget₂ ⟨h, ha⟩, hget₃ ⟨h, ha⟩]
  have hsame : (method = "PUT" ∧ h₁.containsKey "x-amz-copy-source") =
      (method = "PUT" ∧ h₂.containsKey "x-amz-copy-source") :=
    propext (and_congr_right fun h => by rw [containsKey_congr (hcopy (hwrites h))])
  refine ite_congr hsame (fun h => ?_) fun _ => ite_congr rfl (fun h => ?_) fun _ =>
    ite_congr rfl (fun _ => rfl) fun hpart => ite_congr rfl (fun _ => rfl) fun _ =>
    ite_congr rfl (fun _ => rfl) fun _ => ite_congr rfl (fun h => ?_) fun _ =>
    ite_congr rfl (fun _ => rfl) fun _ => ite_congr rfl (fun h => ?_) fun _ => rfl
  · rw [parseCopyObjectRequest_congr (hcopy (hwrites h.1))]
  · rw [(parseObjectRequests_congr (hobject (.inr h)) (hmeta (.inr h))).2]
  · have hdescribes : DescribesObject method query := .inl ⟨hwrites h, fun hp => hpart ⟨h, hp⟩⟩
    rw [(parseObjectRequests_congr (hobject hdescribes) (hmeta hdescribes)).1]
  · rw [parseGetObjectRequest_congr (hread (hreads h))]

/-- **What a request does depends on the headers that its route reads.** -/
theorem operations_congr {r₁ r₂ : S3Request} (hmethod : r₁.method = r₂.method)
    (hpath : r₁.rawPath = r₂.rawPath) (hquery : r₁.rawQuery = r₂.rawQuery)
    (hbody : r₁.body = r₂.body) (h : Agree d r₁ r₂) :
    operations d auth r₁ = operations d auth r₂ := by
  have hroute : resolveBucketAndKey d r₁ = resolveBucketAndKey d r₂ := by
    unfold resolveBucketAndKey
    cases hsuffix : d.virtualHostSuffix with
    | none => rw [hpath]; rfl
    | some suffix => rw [text_congr (h.host (by rw [hsuffix]; rfl)), hpath]
  obtain ⟨method, path, query, h₁, body⟩ := r₁
  obtain ⟨_, _, _, h₂, _⟩ := r₂
  obtain rfl : method = _ := hmethod
  obtain rfl : path = _ := hpath
  obtain rfl : query = _ := hquery
  obtain rfl : body = _ := hbody
  have hread := h.read
  have hmeta := h.metadata
  rw [operations, operations, ← hroute, dispatchRequest, dispatchRequest]
  generalize resolveBucketAndKey d ⟨method, path, query, h₁, body⟩ = route at hread hmeta
  obtain ⟨bucket, key⟩ := route
  cases bucket with
  | none => cases key <;> rfl
  | some bucket =>
    cases key with
    | none => exact dispatchBucket_congr fun ha => hread _ (by simp [headersRead, ha])
    | some key =>
      exact dispatchObject_congr (fun ha => hread _ (by simp [headersRead, ha]))
        (fun hw => hread _ (by simp [headersRead, hw]))
        (fun hd name hn => hread name (by simp [headersRead, hd, hn]))
        (fun hd => hmeta ⟨rfl, rfl, hd⟩)
        fun hr name hn => hread name (by simp [headersRead, hr, hn])

end Congruence

/-! ### The signed values -/

/-- The requests have the same method, path, query and body. -/
structure SameRequest (r₁ r₂ : S3Request) : Prop where
  method : r₁.method = r₂.method
  rawPath : r₁.rawPath = r₂.rawPath
  rawQuery : r₁.rawQuery = r₂.rawQuery
  body : r₁.body = r₂.body

/-- The headers that the proof of a capability is made of. -/
def proofHeaders : List String :=
  ["x-hsp-capability", "x-hsp-request-nonce", "x-hsp-request-proof"]

/-- Both requests are accepted, with the same signed values. -/
inductive SignedAlike (d : S3Deployment) (r₁ r₂ : S3Request) (auth₁ auth₂ : AuthContext) : Prop
  /-- By the token, the nonce and the proof. -/
  | capability (accepted₁ : authenticateHspCapability d.toDeployment r₁.binding = .ok auth₁)
      (accepted₂ : authenticateHspCapability d.toDeployment r₂.binding = .ok auth₂)
      (same : ∀ name ∈ proofHeaders, r₁.headers.text name = r₂.headers.text name)
  /-- By the `Authorization` header and the date, or by the query. -/
  | sigv4 (now₁ now₂ : ℕ → ℕ) (accepted₁ : authenticateSigv4 d now₁ r₁ = .ok auth₁)
      (accepted₂ : authenticateSigv4 d now₂ r₂ = .ok auth₂)
      (same : r₁.headers.text "authorization" = r₂.headers.text "authorization" ∧
          r₁.headers.text "x-amz-date" = r₂.headers.text "x-amz-date" ∨
        "X-Amz-Signature=".toList <:+: r₁.rawQuery.toList)

/-- The requests are made for the same tenant, and do the same whoever makes them. -/
structure SameEffect (d : S3Deployment) (r₁ r₂ : S3Request) (auth₁ auth₂ : AuthContext) : Prop where
  tenant : auth₁.claims.tenantId = auth₂.claims.tenantId
  operations : ∀ auth, operations d auth r₁ = operations d auth r₂

section Tenant

variable {d : S3Deployment} {r r₁ r₂ : S3Request} {auth auth₁ auth₂ : AuthContext} {now : ℕ → ℕ}

theorem requiredHeader_ok {headers : String → Option String} {name value : String}
    (h : requiredHeader headers name = .ok value) : headers name = some value := by
  unfold requiredHeader at h
  split at h
  · rename_i found
    cases h
    exact found
  · cases h

theorem claims_of_capability {binding : HttpRequestBinding}
    (h : authenticateHspCapability d.toDeployment binding = .ok auth) :
    ∃ token, binding.headers "x-hsp-capability" = some token ∧
      verifyCoseSign1Token d.toDeployment token = .ok auth.claims := by
  obtain ⟨token, htoken, h⟩ := except_bind_eq_ok.1 h
  obtain ⟨nonce, -, h⟩ := except_bind_eq_ok.1 h
  obtain ⟨proof, -, h⟩ := except_bind_eq_ok.1 h
  obtain ⟨claims, hclaims, h⟩ := except_bind_eq_ok.1 h
  refine ⟨token, requiredHeader_ok htoken, ?_⟩
  dsimp only at h
  split at h
  · cases h
  · split at h
    · cases h
    · cases h
      exact hclaims

/-- A request with a signed header is accepted for the tenant of its access key. -/
theorem tenant_of_header (h : authenticateHeaderSigv4 d now r = .ok auth) :
    ∃ record, (do
        let authorization ← requiredHeader r.headers.text "authorization"
        let parsed ← parseSigv4Authorization authorization
        sigv4AccessKey d parsed.accessKeyId) = .ok record ∧
      auth.claims.tenantId = record.tenantId := by
  obtain ⟨authorization, hauthorization, h⟩ := except_bind_eq_ok.1 h
  obtain ⟨parsed, hparsed, h⟩ := except_bind_eq_ok.1 h
  obtain ⟨record, hrecord, h⟩ := except_bind_eq_ok.1 h
  refine ⟨record, by rw [hauthorization, except_ok_bind, hparsed, except_ok_bind, hrecord], ?_⟩
  obtain ⟨date, -, h⟩ := except_bind_eq_ok.1 h
  obtain ⟨issuedAt, -, h⟩ := except_bind_eq_ok.1 h
  obtain ⟨_, -, h⟩ := except_bind_eq_ok.1 h
  dsimp only at h
  split at h
  · cases h
  · split at h
    · cases h
    · obtain ⟨canonical, -, h⟩ := except_bind_eq_ok.1 h
      split at h
      · cases h
      · cases h
        rfl

/-- A presigned request is accepted for the tenant of the access key in its query. -/
theorem tenant_of_presigned (h : authenticatePresignedSigv4 d now r = .ok auth) :
    ∃ record, (do
        let params ← parseUniqueQueryPairs r.rawQuery "invalid_presign"
        let credential ← presignParam params "X-Amz-Credential"
          "presigned URL is missing X-Amz-Credential"
        let accessKey ← parseSigv4Credential credential
        sigv4AccessKey d accessKey.1) = .ok record ∧ auth.claims.tenantId = record.tenantId := by
  obtain ⟨params, hparams, h⟩ := except_bind_eq_ok.1 h
  dsimp only at h
  split at h
  · cases h
  · obtain ⟨credential, hcredential, h⟩ := except_bind_eq_ok.1 h
    obtain ⟨signedHeaders, -, h⟩ := except_bind_eq_ok.1 h
    obtain ⟨signature, -, h⟩ := except_bind_eq_ok.1 h
    obtain ⟨date, -, h⟩ := except_bind_eq_ok.1 h
    split at h
    · cases h
    · split at h
      · cases h
      · obtain ⟨issuedAt, -, h⟩ := except_bind_eq_ok.1 h
        obtain ⟨_, -, h⟩ := except_bind_eq_ok.1 h
        split at h
        · cases h
        · obtain ⟨accessKey, haccessKey, h⟩ := except_bind_eq_ok.1 h
          obtain ⟨record, hrecord, h⟩ := except_bind_eq_ok.1 h
          obtain ⟨canonical, -, h⟩ := except_bind_eq_ok.1 h
          refine ⟨record, by rw [hparams, except_ok_bind, hcredential, except_ok_bind, haccessKey,
            except_ok_bind, hrecord], ?_⟩
          split at h
          · cases h
          · cases h
            rfl

/-- **The signed values determine the tenant.** -/
theorem tenant_of_accepted (hsame : SameRequest r₁ r₂) (h : SignedAlike d r₁ r₂ auth₁ auth₂) :
    auth₁.claims.tenantId = auth₂.claims.tenantId := by
  cases h with
  | capability h₁ h₂ hproof =>
    obtain ⟨token₁, htoken₁, hclaims₁⟩ := claims_of_capability h₁
    obtain ⟨token₂, htoken₂, hclaims₂⟩ := claims_of_capability h₂
    obtain rfl := Option.some.inj (htoken₁.symm.trans
      ((hproof "x-hsp-capability" (by decide)).trans htoken₂))
    rw [Except.ok.inj (hclaims₁.symm.trans hclaims₂)]
  | sigv4 now₁ now₂ h₁ h₂ hsigned =>
    unfold authenticateSigv4 at h₁ h₂
    rw [← hsame.rawQuery] at h₂
    split at h₁
    · rename_i hpresigned
      rw [if_pos hpresigned] at h₂
      obtain ⟨record₁, hr₁, ht₁⟩ := tenant_of_presigned h₁
      obtain ⟨record₂, hr₂, ht₂⟩ := tenant_of_presigned h₂
      rw [hsame.rawQuery] at hr₁
      obtain rfl := Except.ok.inj (hr₁.symm.trans hr₂)
      exact ht₁.trans ht₂.symm
    · rename_i hpresigned
      rw [if_neg hpresigned] at h₂
      obtain ⟨hauthorization, -⟩ := hsigned.resolve_right hpresigned
      obtain ⟨record₁, hr₁, ht₁⟩ := tenant_of_header h₁
      obtain ⟨record₂, hr₂, ht₂⟩ := tenant_of_header h₂
      rw [requiredHeader, hauthorization] at hr₁
      obtain rfl := Except.ok.inj (hr₁.symm.trans hr₂)
      exact ht₁.trans ht₂.symm

/-- **Two requests with the same signed values that agree on the headers that their route reads do
the same.** -/
theorem sameEffect_of_agree (hsame : SameRequest r₁ r₂) (h : SignedAlike d r₁ r₂ auth₁ auth₂)
    (hagree : Agree d r₁ r₂) : SameEffect d r₁ r₂ auth₁ auth₂ :=
  ⟨tenant_of_accepted hsame h, fun _ =>
    operations_congr hsame.method hsame.rawPath hsame.rawQuery hsame.body hagree⟩

end Tenant

/-! ### Requests that can be changed -/

/-- Who knows the signed values of a request cannot change what it does. -/
def Bound (d : S3Deployment) (r : S3Request) (auth : AuthContext) : Prop :=
  ∀ r' auth', SameRequest r r' → SignedAlike d r r' auth auth' → SameEffect d r r' auth auth'

/-- The request with headers added, which take the place of those with the same names. -/
def S3Request.adding (r : S3Request) (extra : HeaderMap) : S3Request :=
  { r with headers := extra ++ r.headers }

section Forgery

variable {d : S3Deployment} {r : S3Request} {auth : AuthContext} {extra : HeaderMap}

/-- The proof of a capability does not tell whether headers are added. -/
theorem signedAlike_adding (hfree : ∀ name ∈ proofHeaders, extra.lookup name = none)
    (h : authenticateHspCapability d.toDeployment r.binding = .ok auth) :
    SignedAlike d r (r.adding extra) auth auth := by
  have htext (name : String) (hn : name ∈ proofHeaders) :
      (r.adding extra).headers.text name = r.headers.text name :=
    text_congr (by simp [S3Request.adding, List.lookup_append, hfree name hn])
  refine .capability h ?_ fun name hn => (htext name hn).symm
  rw [← h, authenticateHspCapability, authenticateHspCapability]
  have hrequired (name : String) (hn : name ∈ proofHeaders) :
      requiredHeader (r.adding extra).binding.headers name =
        requiredHeader r.binding.headers name := by
    rw [requiredHeader, requiredHeader,
      show (r.adding extra).binding.headers name = r.binding.headers name from htext name hn]
  rw [hrequired "x-hsp-capability" (by decide), hrequired "x-hsp-request-nonce" (by decide),
    hrequired "x-hsp-request-proof" (by decide)]
  rfl

/-- Two ways to add headers that make a difference. -/
theorem not_bound_of_two (h : authenticateHspCapability d.toDeployment r.binding = .ok auth)
    (e₁ e₂ : HeaderMap) (h₁ : ∀ name ∈ proofHeaders, e₁.lookup name = none)
    (h₂ : ∀ name ∈ proofHeaders, e₂.lookup name = none)
    (hdiff : operations d auth (r.adding e₁) ≠ operations d auth (r.adding e₂)) :
    ¬ Bound d r auth := fun hbound =>
    have hsame (e : HeaderMap) (he : ∀ name ∈ proofHeaders, e.lookup name = none) :
      operations d auth r = operations d auth (r.adding e) :=
    (hbound (r.adding e) auth ⟨rfl, rfl, rfl, rfl⟩ (signedAlike_adding he h)).operations auth
  hdiff ((hsame e₁ h₁).symm.trans (hsame e₂ h₂))

variable {bucket key : String} (auth)
  (hroute : ∀ extra, resolveBucketAndKey d (r.adding extra) = ⟨some bucket, some key⟩)

include hroute

theorem operations_setsAcl (hsets : SetsAcl r.method r.rawQuery) (value : String) :
    operations d auth (r.adding [("x-amz-acl", some value)]) =
      (fun acl => [.putObjectAcl auth auth.claims.tenantId bucket key acl]) <$>
        cannedAclFromStr value := by
  obtain ⟨hmethod, hacl⟩ := hsets
  rw [operations, hroute]
  simp [dispatchRequest, dispatchObject, S3Request.adding, hmethod, hacl, parseCannedAcl,
    HeaderMap.text]
  cases cannedAclFromStr value <;> rfl

theorem operations_writes (hwrites : Writes r.method r.rawQuery)
    {source sourceBucket sourceKey : String}
    (hsource : splitOnce '/' (trimSlashes source) = some (sourceBucket, sourceKey)) :
    ∃ copy : CopyObjectRequest,
      operations d auth (r.adding [("x-amz-copy-source", some source)]) =
        .ok [.copyObject auth copy] ∧ copy.sourceKey = sourceKey := by
  obtain ⟨hmethod, hlock⟩ := hwrites
  obtain ⟨hacl, hretention, hhold⟩ : hasParam r.rawQuery "acl" = false ∧
      hasParam r.rawQuery "retention" = false ∧ hasParam r.rawQuery "legal-hold" = false := by
    simpa [AboutLock] using hlock
  have htext : (r.adding [("x-amz-copy-source", some source)]).headers.text "x-amz-copy-source" =
      some source := by simp [S3Request.adding, HeaderMap.text]
  rw [operations, hroute, dispatchRequest]
  unfold dispatchObject parseCopyObjectRequest
  dsimp only
  rw [htext, Option.getD_some, hsource]
  simp [S3Request.adding, hmethod, hacl, hretention, hhold, HeaderMap.containsKey]

/-- The headers of a write that is complete, but for the type of the content. -/
def completeHeaders (contentType : String) : HeaderMap :=
  [("content-type", some contentType), ("x-hsp-access-profile", some "public-ciphertext"),
    ("x-hsp-payload-mode", some "plaintext"), ("x-hsp-encryption-profile-id", some ""),
    ("x-hsp-key-policy-id", some ""), ("x-hsp-metadata-visibility", some "split"),
    ("x-hsp-recipient-key-id", some ""), ("x-hsp-key-wrapping-suite", some ""),
    ("x-hsp-wrapped-object-key", some "")]

theorem operations_startsUpload (hstarts : StartsUpload r.method r.rawQuery)
    (contentType : String) : ∃ request : CreateMultipartUploadRequest,
      operations d auth (r.adding (completeHeaders contentType)) =
        .ok [.createMultipartUpload auth request] ∧ request.contentType = contentType := by
  obtain ⟨hmethod, huploads⟩ := hstarts
  rw [operations, hroute, dispatchRequest]
  unfold dispatchObject
  simp [S3Request.adding, hmethod, huploads, completeHeaders, parseCreateMultipartRequest,
    parseAccessProfile, parseWrappedObjectKeys, parseWrappedObjectKey, operationHeader,
    parseVisibilityMode, HeaderMap.text, HeaderMap.containsKey, List.lookup_cons]

theorem operations_readsObject (hreads : ReadsObject r.method r.rawQuery) {range : String}
    {spec : RangeSpec} (hspec : parseRange [("range", some range)] = .ok (some spec)) :
    ∃ request : GetObjectRequest, operations d auth (r.adding [("range", some range),
        ("x-hsp-access-profile", some "public-ciphertext")]) = .ok [.getObject auth request] ∧
      request.range = some spec := by
  obtain ⟨hmethod, hlock⟩ := hreads
  obtain ⟨hacl, hretention, hhold⟩ : hasParam r.rawQuery "acl" = false ∧
      hasParam r.rawQuery "retention" = false ∧ hasParam r.rawQuery "legal-hold" = false := by
    simpa [AboutLock] using hlock
  have hrange : parseRange (r.adding [("range", some range),
      ("x-hsp-access-profile", some "public-ciphertext")]).headers = .ok (some spec) := by
    rw [← hspec, parseRange, parseRange]
    simp [S3Request.adding, HeaderMap.text]
  rw [operations, hroute, dispatchRequest]
  unfold dispatchObject parseGetObjectRequest
  dsimp only
  rw [hrange]
  simp [S3Request.adding, hmethod, hacl, hretention, hhold, parseAccessProfile, HeaderMap.text,
    List.lookup_cons]

end Forgery

section Routes

variable {d : S3Deployment} {r : S3Request} {auth : AuthContext} {bucket key : String}

theorem operations_setsBucketAcl
    (hroute : ∀ extra, resolveBucketAndKey d (r.adding extra) = ⟨some bucket, none⟩)
    (hsets : SetsAcl r.method r.rawQuery) (value : String) :
    operations d auth (r.adding [("x-amz-acl", some value)]) =
      (fun acl => [.putBucketAcl auth auth.claims.tenantId bucket acl]) <$>
        cannedAclFromStr value := by
  obtain ⟨hmethod, hacl⟩ := hsets
  rw [operations, hroute]
  simp [dispatchRequest, dispatchBucket, S3Request.adding, hmethod, hacl, parseCannedAcl,
    HeaderMap.text]
  cases cannedAclFromStr value <;> rfl

variable (h : authenticateHspCapability d.toDeployment r.binding = .ok auth)

include h

/-- The access control list of a bucket is not bound. -/
theorem not_bound_bucket
    (hroute : ∀ extra, resolveBucketAndKey d (r.adding extra) = ⟨some bucket, none⟩)
    (hsets : SetsAcl r.method r.rawQuery) : ¬ Bound d r auth := by
  refine not_bound_of_two h [("x-amz-acl", some "private")] [("x-amz-acl", some "public-read")]
    (by decide) (by decide) ?_
  rw [operations_setsBucketAcl hroute hsets, operations_setsBucketAcl hroute hsets]
  exact nofun

/-- A route of an object that reads headers is not bound. -/
theorem not_bound_object
    (hroute : ∀ extra, resolveBucketAndKey d (r.adding extra) = ⟨some bucket, some key⟩)
    (hreads : SetsAcl r.method r.rawQuery ∨ Writes r.method r.rawQuery ∨
      StartsUpload r.method r.rawQuery ∨ ReadsObject r.method r.rawQuery) : ¬ Bound d r auth := by
  rcases hreads with hsets | hwrites | hstarts | hread
  · refine not_bound_of_two h [("x-amz-acl", some "private")]
      [("x-amz-acl", some "public-read")] (by decide) (by decide) ?_
    rw [operations_setsAcl auth hroute hsets, operations_setsAcl auth hroute hsets]
    exact nofun
  · have hb : splitOnce '/' (trimSlashes "/a/b") = some ("a", "b") := by decide
    have hc : splitOnce '/' (trimSlashes "/a/c") = some ("a", "c") := by decide
    obtain ⟨copy₁, h₁, hkey₁⟩ := operations_writes auth hroute hwrites hb
    obtain ⟨copy₂, h₂, hkey₂⟩ := operations_writes auth hroute hwrites hc
    refine not_bound_of_two h [("x-amz-copy-source", some "/a/b")]
      [("x-amz-copy-source", some "/a/c")] (by decide) (by decide) fun heq => ?_
    rw [h₁, h₂] at heq
    cases heq
    exact absurd (hkey₁.symm.trans hkey₂) (by decide)
  · obtain ⟨request₁, h₁, htype₁⟩ := operations_startsUpload auth hroute hstarts "a"
    obtain ⟨request₂, h₂, htype₂⟩ := operations_startsUpload auth hroute hstarts "b"
    refine not_bound_of_two h (completeHeaders "a") (completeHeaders "b") (by decide) (by decide)
      fun heq => ?_
    rw [h₁, h₂] at heq
    cases heq
    exact absurd (htype₁.symm.trans htype₂) (by decide)
  · have h₀ : parseRange [("range", some "bytes=0-0")] = .ok (some ⟨0, 0⟩) := rfl
    have h₁ : parseRange [("range", some "bytes=1-1")] = .ok (some ⟨1, 1⟩) := rfl
    obtain ⟨request₀, hget₀, hrange₀⟩ := operations_readsObject auth hroute hread h₀
    obtain ⟨request₁, hget₁, hrange₁⟩ := operations_readsObject auth hroute hread h₁
    refine not_bound_of_two h
      [("range", some "bytes=0-0"), ("x-hsp-access-profile", some "public-ciphertext")]
      [("range", some "bytes=1-1"), ("x-hsp-access-profile", some "public-ciphertext")] (by decide)
      (by decide) fun heq => ?_
    rw [hget₀, hget₁] at heq
    cases heq
    exact absurd (hrange₀.symm.trans hrange₁) (by decide)

/-- **A request with a capability is bound exactly if its route reads no header**, on a server
without virtual hosts. -/
theorem bound_iff_unread (hsuffix : d.virtualHostSuffix = none) :
    Bound d r auth ↔ headersRead r.method r.rawQuery (pathRoute r.rawPath) = [] := by
  have hroute (extra : HeaderMap) :
      resolveBucketAndKey d (r.adding extra) = pathRoute r.rawPath := by
    rw [resolveBucketAndKey, hsuffix]
    rfl
  have hroute₀ : resolveBucketAndKey d r = pathRoute r.rawPath := by
    rw [resolveBucketAndKey, hsuffix]
    rfl
  constructor
  · intro hbound
    by_contra hreads
    generalize pathRoute r.rawPath = route at hroute hreads
    obtain ⟨_ | bucket, _ | key⟩ := route
    · exact hreads rfl
    · exact hreads rfl
    · refine not_bound_bucket h hroute ?_ hbound
      by_contra hsets
      exact hreads (by simp [headersRead, hsets])
    · refine not_bound_object h hroute ?_ hbound
      by_contra hnone
      simp only [not_or] at hnone
      obtain ⟨hsets, hwrites, hstarts, hread⟩ := hnone
      have hdescribes : ¬ DescribesObject r.method r.rawQuery := by
        rintro (hd | hd)
        exacts [hwrites hd.1, hstarts hd]
      exact hreads (by simp [headersRead, hsets, hwrites, hdescribes, hread])
  · intro hunread r' auth' hsame hsigned
    refine sameEffect_of_agree hsame hsigned ⟨fun hs => ?_, fun name hn => ?_, fun hd => ?_⟩
    · rw [hsuffix] at hs
      cases hs
    · rw [hroute₀, hunread] at hn
      cases hn
    · -- A route that reads metadata reads other headers, too.
      obtain ⟨hbucket, hkey, hdescribes⟩ := hd
      rw [hroute₀] at hbucket hkey
      generalize pathRoute r.rawPath = route at hbucket hkey hunread
      obtain ⟨_ | bucket, _ | key⟩ := route
      · cases hbucket
      · cases hbucket
      · cases hkey
      · simp [headersRead, hdescribes, objectHeaders] at hunread

end Routes

/-- **What the signed values bind.**  Two requests with the same method, path, query and body that
are accepted with the same signed values do the same if they agree on the headers that their route
reads.  On a server without virtual hosts, what a request with a capability does can be changed by
nobody who holds the signed values exactly if its route reads no header. -/
theorem bound_iff (d : S3Deployment) :
    (∀ r₁ r₂ auth₁ auth₂, SameRequest r₁ r₂ → SignedAlike d r₁ r₂ auth₁ auth₂ → Agree d r₁ r₂ →
      SameEffect d r₁ r₂ auth₁ auth₂) ∧
    (d.virtualHostSuffix = none → ∀ (r : S3Request) auth,
      authenticateHspCapability d.toDeployment r.binding = .ok auth →
        (Bound d r auth ↔ headersRead r.method r.rawQuery (pathRoute r.rawPath) = [])) :=
  ⟨fun _ _ _ _ hsame hsigned hagree => sameEffect_of_agree hsame hsigned hagree,
    fun hsuffix _ _ h => bound_iff_unread h hsuffix⟩

/-! ### A write that becomes a copy -/

namespace Sample

open Hsp.Sample

/-- A server without virtual hosts, access keys and XML documents. -/
def s3Deployment : S3Deployment :=
  { deployment [] [(auth "1").claims] 0 with
    virtualHostSuffix := none
    listAllAccessKeys := .ok []
    hmacSha256 := fun _ bytes => bytes
    xml := {
      cannedAcl := fun _ => .error routeNotFound
      lifecycle := fun _ _ _ => .error routeNotFound
      website := fun _ _ _ => .error routeNotFound
      replication := fun _ _ _ => .error routeNotFound
      delete := fun _ => .error routeNotFound
      retention := fun _ => .error routeNotFound
      legalHold := fun _ => .error routeNotFound
      completeMultipartUpload := fun _ => .error routeNotFound } }

/-- The proof of a request of an object. -/
def objectProof (method : String) (body : List UInt8) : String :=
  requestProof s3Deployment.toDeployment ⟨method, "/b/k", "", fun _ => none, body⟩ (token 0) "n"

/-- A request of an object with a capability, and with other headers. -/
def objectRequest (method : String) (body : List UInt8) (others : HeaderMap) : S3Request where
  method := method
  rawPath := "/b/k"
  rawQuery := ""
  headers := [("x-hsp-capability", some (token 0)), ("x-hsp-request-nonce", some "n"),
    ("x-hsp-request-proof", some (objectProof method body))] ++ others
  body := body

/-- Who makes the request. -/
def objectAuth (method : String) (body : List UInt8) : AuthContext :=
  ⟨(auth "1").claims, some ⟨"request-signature", objectProof method body, "n"⟩⟩

/-- A write of the body. -/
def write : S3Request := objectRequest "PUT" chunk (completeHeaders "t")

/-- The same request, with a header added on the way. -/
def copied : S3Request := write.adding [("x-amz-copy-source", some "/b/other")]

theorem write_accepted : authenticateHspCapability s3Deployment.toDeployment write.binding =
    .ok (objectAuth "PUT" chunk) := by
  rfl

theorem operations_write : ∃ put : PutObjectRequest,
    operations s3Deployment (objectAuth "PUT" chunk) write =
      .ok [.putObject (objectAuth "PUT" chunk) put chunk] :=
  ⟨_, rfl⟩

theorem operations_copied : ∃ copy : CopyObjectRequest,
    operations s3Deployment (objectAuth "PUT" chunk) copied =
      .ok [.copyObject (objectAuth "PUT" chunk) copy] ∧ copy.sourceKey = "other" := by
  have hroute (extra : HeaderMap) :
      resolveBucketAndKey s3Deployment (write.adding extra) = ⟨some "b", some "k"⟩ :=
    (by decide : pathRoute "/b/k" = ⟨some "b", some "k"⟩)
  have hsource : splitOnce '/' (trimSlashes "/b/other") = some ("b", "other") := by decide
  exact operations_writes (objectAuth "PUT" chunk) hroute (by decide) hsource

/-- **A write becomes a copy.**  Both requests have the same method, path, query and body, and are
accepted with the same token, nonce and proof; the one writes its body, the other one writes the
bytes of another object. -/
theorem write_becomes_copy :
    SameRequest write copied ∧
    SignedAlike s3Deployment write copied (objectAuth "PUT" chunk) (objectAuth "PUT" chunk) ∧
    (∃ put, operations s3Deployment (objectAuth "PUT" chunk) write =
      .ok [.putObject (objectAuth "PUT" chunk) put chunk]) ∧
    (∃ copy : CopyObjectRequest, operations s3Deployment (objectAuth "PUT" chunk) copied =
      .ok [.copyObject (objectAuth "PUT" chunk) copy] ∧ copy.sourceKey = "other") ∧
    ¬ SameEffect s3Deployment write copied (objectAuth "PUT" chunk) (objectAuth "PUT" chunk) := by
  refine ⟨⟨rfl, rfl, rfl, rfl⟩, signedAlike_adding (by decide) write_accepted, operations_write,
    operations_copied, fun heffect => ?_⟩
  obtain ⟨put, hput⟩ := operations_write
  obtain ⟨copy, hcopy, -⟩ := operations_copied
  have hsame := heffect.operations (objectAuth "PUT" chunk)
  rw [hput, hcopy] at hsame
  cases hsame

/-- A request for the head of the object. -/
def headRequest : S3Request := objectRequest "HEAD" [] []

/-- Nobody can change what a request for a head does. -/
theorem head_bound :
    authenticateHspCapability s3Deployment.toDeployment headRequest.binding =
      .ok (objectAuth "HEAD" []) ∧
    Bound s3Deployment headRequest (objectAuth "HEAD" []) :=
  have haccepted : authenticateHspCapability s3Deployment.toDeployment headRequest.binding =
      .ok (objectAuth "HEAD" []) := rfl
  ⟨haccepted, ((bound_iff s3Deployment).2 rfl headRequest _ haccepted).2 (by decide)⟩

end Sample

end Hsp.S3
