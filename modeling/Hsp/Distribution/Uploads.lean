import Hsp.Distribution.Calls
import Hsp.Sample.Deployment

/-!
# The names of uploads in parts

An upload is named after its bucket, its key and the time.  The three are joined by colons, which
bucket names may contain, so that not only two uploads of one key in one millisecond can share a
name.

* `uploads_apart_iff` : two uploads share a name if and only if they begin in one millisecond, and
  their buckets and keys are the same up to a colon that occurs in them.
-/

namespace Hsp

namespace Distribution

variable {d : Deployment} {s s' : Server} {auth : AuthContext}

/-! ### The name of an upload -/

/-- The text an upload is named after. -/
def uploadText (d : Deployment) (s : Server) (request : CreateMultipartUploadRequest) :
    Except ApiError String := do
  let bucket ← canonicalBucketName request.bucket
  let key ← canonicalObjectKeyName request.key
  return bucket ++ ":" ++ key ++ ":" ++ toString (d.clock s.alpha.tick)

/-- The uploads begin in one millisecond, and their buckets and keys make the same text. -/
def SameUpload (d : Deployment) (s s' : Server) (request request' : CreateMultipartUploadRequest) :
    Prop :=
  ∃ bucket key bucket' key', canonicalBucketName request.bucket = .ok bucket ∧
    canonicalObjectKeyName request.key = .ok key ∧
    canonicalBucketName request'.bucket = .ok bucket' ∧
    canonicalObjectKeyName request'.key = .ok key' ∧
    SameJoin ":" bucket key bucket' key' ∧ d.clock s.alpha.tick = d.clock s'.alpha.tick

theorem sameUpload_iff {request request' : CreateMultipartUploadRequest} {text text' : String}
    (h : uploadText d s request = .ok text) (h' : uploadText d s' request' = .ok text') :
    text = text' ↔ SameUpload d s s' request request' := by
  have hcolon : ":".toList = [':'] := rfl
  have hdigits (n : ℕ) (r r' : String) : toString n ≠ r ++ ":" ++ r' := fun heq =>
    absurd (Nat.isDigit_of_mem_toDigits (c := ':') (by decide) (by decide)
      (Nat.toList_repr (n := n) ▸ (show ':' ∈ (toString n).toList by simp [heq]))) (by decide)
  have hvalue {m n : ℕ} (heq : toString m = toString n) : m = n := by
    have hread := congrArg (fun text => Nat.ofDigitChars 10 text.toList 0) heq
    simpa [Nat.ofDigitChars_toDigits] using hread
  obtain ⟨bucket, hbucket, h⟩ := except_bind_eq_ok.1 h
  obtain ⟨key, hkey, h⟩ := except_bind_eq_ok.1 h
  obtain ⟨bucket', hbucket', h'⟩ := except_bind_eq_ok.1 h'
  obtain ⟨key', hkey', h'⟩ := except_bind_eq_ok.1 h'
  cases h
  cases h'
  rw [sameJoin_iff hcolon, SameJoin, sameJoin_iff hcolon]
  constructor
  · rintro (⟨hname, htime⟩ | ⟨r, -, htime⟩ | ⟨r, -, htime⟩)
    · exact ⟨_, _, _, _, hbucket, hkey, hbucket', hkey', hname, hvalue htime⟩
    · exact absurd htime (hdigits _ _ _)
    · exact absurd htime (hdigits _ _ _)
  · rintro ⟨_, _, _, _, h₁, h₂, h₃, h₄, hname, htime⟩
    cases hbucket.symm.trans h₁
    cases hkey.symm.trans h₂
    cases hbucket'.symm.trans h₃
    cases hkey'.symm.trans h₄
    exact .inl ⟨hname, by rw [htime]⟩

theorem createMultipartUpload_ok (hs : Registered s) {request : CreateMultipartUploadRequest}
    {response : CreateMultipartUploadResponse}
    (h : runE (act d) (createMultipartUpload d auth request) s = (.ok response, s')) :
    ∃ text session, uploadText d s request = .ok text ∧
      response.uploadId = "multipart-" ++ cidFromBytes d.toEnv (utf8 text) ∧
      s' = s.ticked.ticked.put (multipartSessionSlot request.tenantId response.uploadId)
        (.session session) := by
  obtain ⟨_, -, h⟩ := ofExcept_bind_ok h
  obtain ⟨bucket, _, hbucket, h⟩ := runE_bind_eq_ok _ h
  obtain ⟨rfl, name, hname, hrecord⟩ := requireBucket_ok hbucket
  obtain ⟨key, hkey, h⟩ := ofExcept_bind_ok h
  obtain ⟨_, -, h⟩ := ofExcept_bind_ok h
  obtain ⟨_, _, hwrapped, h⟩ := runE_bind_eq_ok _ h
  obtain ⟨-, rfl⟩ := rejectIf_ok hwrapped
  cases h
  refine ⟨_, _, ?_, rfl, rfl⟩
  rw [uploadText, hname, hkey, (hs _ _ _ hrecord).1]
  rfl

/-- **Which uploads are kept apart.**  The second of two uploads of a tenant has a name of its own
and leaves the session of the first alone unless they begin in one millisecond, and the buckets and
keys are the same up to a colon that occurs in them. -/
theorem uploads_apart_iff (d : Deployment) (before between : List Request)
    (auth auth' : AuthContext) (request request' : CreateMultipartUploadRequest)
    (htenant : request'.tenantId = request.tenantId)
    {response response' : CreateMultipartUploadResponse}
    (hfirst : (Request.createMultipartUpload auth request).perform d
      (runRequests d before .empty) = (.ok response, s))
    (hsecond : (Request.createMultipartUpload auth' request').perform d
      (runRequests d between s) = (.ok response', s')) :
    response'.uploadId ≠ response.uploadId ∧
        s'.lookup (multipartSessionSlot request.tenantId response.uploadId) =
          (runRequests d between s).lookup
            (multipartSessionSlot request.tenantId response.uploadId) ↔
      ¬ SameUpload d (runRequests d before .empty) (runRequests d between s) request request' := by
  have hstart : Registered (runRequests d before .empty) := .runRequests before
  have hs : Registered s := by
    have hperform := hstart.perform (d := d) (.createMultipartUpload auth request)
    rwa [hfirst] at hperform
  obtain ⟨text, _, htext, hid, -⟩ := createMultipartUpload_ok hstart hfirst
  obtain ⟨text', _, htext', hid', hput⟩ := createMultipartUpload_ok
    (runRequests_invariant Registered.perform between hs) hsecond
  rw [← sameUpload_iff htext htext']
  constructor
  · rintro ⟨hne, -⟩ rfl
    exact hne (hid'.trans hid.symm)
  · intro hne
    have hids : response'.uploadId ≠ response.uploadId := by
      rw [hid, hid']
      intro heq
      exact hne (utf8_inj (cidFromBytes_inj ((String.append_right_inj _).1 heq))).symm
    refine ⟨hids, ?_⟩
    rw [hput, Server.lookup_put_of_ne]
    · rfl
    · rw [htenant]
      exact fun heq => hids (Slot.mk.inj heq).2.2.symm

end Distribution

namespace Sample

open Hsp.Distribution

/-- The history in which a bucket is created. -/
def bucketCreated : List Request := [.createBucket (auth "0") tenant "b"]

/-- The start of an upload to a key. -/
def started (key : String) (s : Server) : Except ApiError CreateMultipartUploadResponse × Server :=
  (Request.createMultipartUpload (auth "0") (multipartRequest "b" key "i")).perform
    (deployment [] [] 0) s

/-- The start of the first upload. -/
def firstStarted : Except ApiError CreateMultipartUploadResponse × Server :=
  started "k" (runRequests (deployment [] [] 0) bucketCreated .empty)

theorem started_ok (key : String) (s : Server) (h : (started key s).1.toOption.isSome) :
    ∃ response, started key s = (.ok response, (started key s).2) := by
  revert h
  rcases started key s with ⟨e | response, s'⟩
  · exact nofun
  · exact fun _ => ⟨response, rfl⟩

/-- Uploads to two keys are kept apart. -/
theorem uploads_of_two_keys : ∃ response response', firstStarted.1 = .ok response ∧
    (started "l" firstStarted.2).1 = .ok response' ∧ response'.uploadId ≠ response.uploadId := by
  obtain ⟨response, hfirst⟩ := started_ok "k"
    (runRequests (deployment [] [] 0) bucketCreated .empty) (by decide +kernel)
  obtain ⟨response', hsecond⟩ := started_ok "l" firstStarted.2 (by decide +kernel)
  have happart := uploads_apart_iff (deployment [] [] 0) bucketCreated [] (auth "0") (auth "0")
    (multipartRequest "b" "k" "i") (multipartRequest "b" "l" "i") rfl hfirst hsecond
  have hother : ¬ SameUpload (deployment [] [] 0) (runRequests (deployment [] [] 0) bucketCreated
      .empty) firstStarted.2 (multipartRequest "b" "k" "i") (multipartRequest "b" "l" "i") := by
    have htext : uploadText (deployment [] [] 0) (runRequests (deployment [] [] 0) bucketCreated
        .empty) (multipartRequest "b" "k" "i") = .ok "b:k:0" := by decide +kernel
    have htext' : uploadText (deployment [] [] 0) firstStarted.2 (multipartRequest "b" "l" "i") =
        .ok "b:l:0" := by decide +kernel
    rw [← sameUpload_iff htext htext']
    decide
  exact ⟨response, response', by rw [firstStarted, hfirst], by rw [hsecond],
    (happart.2 hother).1⟩

/-- Two uploads to one key in one millisecond. -/
theorem uploads_collide : firstStarted.1.toOption.map (·.uploadId) = some (uploadId "b" "k" 0) ∧
    (started "k" firstStarted.2).1.toOption.map (·.uploadId) = some (uploadId "b" "k" 0) := by
  decide +kernel

end Sample

end Hsp
