import Hsp.S3.Binding

/-!
# How long a presigned request can be used

A presigned request carries its signature, the time it was made at and the seconds it may be used
for in its query; but the times of all signed requests are also held to the skew of the clocks.

* `Presigned.lives_iff` : a presigned request can be used as long as it says, or until the skew is
  over.
-/

namespace Hsp.S3

open Hsp.Distribution Cdn

variable {d : S3Deployment} {r : S3Request}

/-- A presigned request that is signed correctly. -/
structure Presigned (d : S3Deployment) (r : S3Request) where
  params : BTreeMap String String
  (credential signedHeaders signature date accessKeyId dateScope region service canonical : String)
  issuedAt : ℕ
  expires : UInt64
  record : SigV4AccessKeyRecord
  params_eq : parseUniqueQueryPairs r.rawQuery "invalid_presign" = .ok params
  algorithm_eq : params[("X-Amz-Algorithm" : String)]? = some "AWS4-HMAC-SHA256"
  credential_eq : params[("X-Amz-Credential" : String)]? = some credential
  signedHeaders_eq : params[("X-Amz-SignedHeaders" : String)]? = some signedHeaders
  signature_eq : params[("X-Amz-Signature" : String)]? = some signature
  date_eq : params[("X-Amz-Date" : String)]? = some date
  expires_eq : params[("X-Amz-Expires" : String)]?.bind parseU64 = some expires
  expires_le : expires.toNat ≤ maxPresignExpiresSec
  issuedAt_eq : parseAmzDateWithCode date "invalid_presign" = .ok issuedAt
  scope_eq : parseSigv4Credential credential = .ok (accessKeyId, dateScope, region, service)
  record_eq : sigv4AccessKey d accessKeyId = .ok record
  canonical_eq : canonicalSigv4Request r.method r.rawPath (canonicalPresignQuery params) r.headers
    (splitSignedHeaders signedHeaders) "UNSIGNED-PAYLOAD" = .ok canonical
  signed : sigv4Signature d record.secretAccessKey dateScope region service (sigv4StringToSign d
    date (dateScope ++ "/" ++ region ++ "/" ++ service ++ "/aws4_request") canonical) = signature

theorem ensureSigv4TimeWindow_isOk {now issuedAt : ℕ} {errorCode requestKind : String} :
    (ensureSigv4TimeWindow now issuedAt errorCode requestKind).isOk ↔
      issuedAt ≤ min (now + maxSigv4ClockSkewMs) (2 ^ 64 - 1) ∧
        now - issuedAt ≤ maxSigv4ClockSkewMs := by
  unfold ensureSigv4TimeWindow
  split
  · exact iff_of_false Bool.false_ne_true (by omega)
  · split
    · exact iff_of_false Bool.false_ne_true (by omega)
    · exact iff_of_true rfl (by omega)

namespace Presigned

/-- Only the time can be wrong. -/
theorem accepts_iff (p : Presigned d r) (clock : ℕ → ℕ) :
    (authenticatePresignedSigv4 d clock r).isOk ↔
      (ensureSigv4TimeWindow (clock 0) p.issuedAt "invalid_presign" "presigned URL").isOk ∧
        clock 1 ≤ min (p.issuedAt + p.expires.toNat * 1000) (2 ^ 64 - 1) := by
  have hparam {name value : String} (h : p.params[name]? = some value) (message : String) :
      presignParam p.params name message = .ok value := by rw [presignParam, h]
  unfold authenticatePresignedSigv4
  rw [p.params_eq, except_ok_bind, if_neg (by simp [p.algorithm_eq]), hparam p.credential_eq,
    except_ok_bind, hparam p.signedHeaders_eq, except_ok_bind, hparam p.signature_eq,
    except_ok_bind, hparam p.date_eq, except_ok_bind, p.expires_eq]
  dsimp only
  rw [if_neg (not_lt.2 p.expires_le), p.issuedAt_eq, except_ok_bind]
  cases ensureSigv4TimeWindow (clock 0) p.issuedAt "invalid_presign" "presigned URL" with
  | error e => exact iff_of_false Bool.false_ne_true fun h => Bool.false_ne_true h.1
  | ok u =>
    rw [except_ok_bind]
    split
    · exact iff_of_false Bool.false_ne_true (by omega)
    · rw [p.scope_eq, except_ok_bind, p.record_eq, except_ok_bind, p.canonical_eq, except_ok_bind,
        if_neg (not_not.2 p.signed)]
      exact iff_of_true rfl ⟨rfl, by omega⟩

/-- **A presigned request is accepted** from the time it was made at on as long as it says, and not
any more after that, if and only if the time is within the skew of the clocks, or the request may
not be used any more.  The clock is read once for the skew, and then for the expiry. -/
theorem lives_iff (p : Presigned d r) (clock : ℕ → UInt64) (hclock : clock 0 ≤ clock 1) :
    ((p.issuedAt ≤ (clock 0).toNat → (clock 1).toNat ≤ p.issuedAt + p.expires.toNat * 1000 →
        (authenticatePresignedSigv4 d (fun n => (clock n).toNat) r).isOk) ∧
      (p.issuedAt + p.expires.toNat * 1000 < (clock 0).toNat →
        ¬ (authenticatePresignedSigv4 d (fun n => (clock n).toNat) r).isOk)) ↔
      (clock 0).toNat ≤ p.issuedAt + maxSigv4ClockSkewMs ∨
        p.issuedAt + p.expires.toNat * 1000 < (clock 1).toNat := by
  have hlast := (clock 1).toNat_lt
  have hle : (clock 0).toNat ≤ (clock 1).toNat := UInt64.le_iff_toNat_le.1 hclock
  rw [p.accepts_iff, ensureSigv4TimeWindow_isOk]
  constructor
  · intro h
    omega
  · intro h
    omega

end Presigned

namespace Sample

open Hsp.Sample

def accessKey : SigV4AccessKeyRecord where
  accessKeyId := "k"
  secretAccessKey := "s"
  tenantId := tenant
  namespacePrefix := none
  pathPrefix := none
  maxObjectSize := none
  storageClasses := []
  keyPolicyId := ⟨"p"⟩
  metadataVisibility := .split
  enabled := true

/-- A server with one access key. -/
def signingDeployment : S3Deployment :=
  { s3Deployment with
    listAllAccessKeys := .ok [accessKey]
    hmacSha256 := fun _ _ => [] }

def presignedRequest : S3Request where
  method := "GET"
  rawPath := "/b/k"
  rawQuery := "X-Amz-Algorithm=AWS4-HMAC-SHA256&X-Amz-Credential=k/20260101/r/s/aws4_request&" ++
    "X-Amz-SignedHeaders=host&X-Amz-Signature=&X-Amz-Date=20260101T000000Z&X-Amz-Expires=3600"
  headers := [("host", some "h")]
  body := []

/-- The parameters of the request, which was made at the beginning of 2026. -/
def presigned : Presigned signingDeployment presignedRequest where
  params := ((((((∅ : BTreeMap String String).insert "X-Amz-Algorithm" "AWS4-HMAC-SHA256").insert
    "X-Amz-Credential" "k/20260101/r/s/aws4_request").insert "X-Amz-SignedHeaders" "host").insert
    "X-Amz-Signature" "").insert "X-Amz-Date" "20260101T000000Z").insert "X-Amz-Expires" "3600"
  credential := "k/20260101/r/s/aws4_request"
  signedHeaders := "host"
  signature := ""
  date := "20260101T000000Z"
  accessKeyId := "k"
  dateScope := "20260101"
  region := "r"
  service := "s"
  canonical := "GET\n/b/k\nX-Amz-Algorithm=AWS4-HMAC-SHA256&" ++
    "X-Amz-Credential=k/20260101/r/s/aws4_request&X-Amz-Date=20260101T000000Z&" ++
    "X-Amz-Expires=3600&X-Amz-SignedHeaders=host\nhost:h\n\nhost\nUNSIGNED-PAYLOAD"
  issuedAt := 1767225600000
  expires := 3600
  record := accessKey
  params_eq := by decide +kernel
  algorithm_eq := by decide +kernel
  credential_eq := by decide +kernel
  signedHeaders_eq := by decide +kernel
  signature_eq := by decide +kernel
  date_eq := by decide +kernel
  expires_eq := by decide +kernel
  expires_le := by decide
  issuedAt_eq := by decide +kernel
  scope_eq := by decide +kernel
  record_eq := rfl
  canonical_eq := by decide +kernel
  signed := by decide +kernel

/-- The request is accepted a minute after it was made. -/
theorem presigned_lives : (authenticatePresignedSigv4 signingDeployment
    (fun _ => 1767225660000) presignedRequest).isOk :=
  ((presigned.lives_iff (fun _ => 1767225660000) (UInt64.le_refl _)).2 (.inl (by decide))).1
    (by decide) (by decide)

/-- A request that may be used for an hour is turned down after five minutes. -/
theorem presigned_too_early :
    (authenticatePresignedSigv4 signingDeployment (fun _ => 1767225600000) presignedRequest).isOk ∧
      authenticatePresignedSigv4 signingDeployment (fun _ => 1767225900001) presignedRequest =
        .error (invalidPresign "presigned URL is older than the allowed clock skew window") := by
  decide +kernel

end Sample

end Hsp.S3
