import Hsp.Distribution.Request
import Hsp.Sample.Basic

/-!
# A sample distribution server

The sample platform with what a distribution server needs on top of it: a token of a mutation
record is the position of the record in a table, and so is a capability.  The key management uses
one key and does not encrypt.
-/

namespace Hsp

namespace Sample

open Hsp.Distribution

/-- The position of a record in a table, as a byte. -/
def position (records : List NamespaceMutationRecord) (record : NamespaceMutationRecord) : UInt8 :=
  .ofNat (records.idxOf record)

theorem eq_of_position {records : List NamespaceMutationRecord}
    {record record' : NamespaceMutationRecord} (hlen : records.length ≤ 255)
    (h : records[(position records record).toNat]? = some record') : record' = record := by
  have hle : records.idxOf record ≤ records.length := List.idxOf_le_length
  have hmod : records.idxOf record % 2 ^ 8 = records.idxOf record := Nat.mod_eq_of_lt (by omega)
  rw [position, UInt8.toNat_ofNat', hmod] at h
  obtain ⟨hlt, hget⟩ := List.getElem?_eq_some_iff.1 h
  rw [← hget, List.getElem_idxOf]

/-- The first records of a table, as many as have a position. -/
def table (records : List NamespaceMutationRecord) : List NamespaceMutationRecord :=
  records.take 255

/-- The distribution server whose issuer has signed the given records and capabilities, and whose
clock always shows the same time. -/
def deployment (records : List NamespaceMutationRecord) (capabilities : List CapabilityClaims)
    (now : ℕ) : Deployment :=
  { env (table records) with
    clock := fun _ => now
    capabilityAudience := "a"
    immutableCidTtlSec := 0
    namespaceTtlSec := 0
    plaintextProfileEnabled := true
    registry := ⟨[⟨"issuer", "key", "Ed25519", Base64.encode (List.replicate 32 0), []⟩]⟩
    registered := rfl
    claimsFromReader := fun bytes => match bytes with
      | [i] => capabilities[i.toNat]?
      | _ => none
    sha256 := id
    namespaceToken := fun record => [position (table records) record]
    namespaceToken_read := by
      intro record token payload record' htoken hpayload hrecord
      cases htoken
      cases hpayload
      exact eq_of_position (by simp [table]) hrecord
    generateObjectDataKey := fun _ => []
    encryptClientChunk := fun _ _ bytes => .ok (bytes, "")
    decryptClientChunk := fun _ _ bytes => .ok bytes
    wrapObjectKeyForRecipient := fun _ _ recipient _ => .ok ⟨recipient, "", "", 1, none⟩
    unwrapObjectKeyForRecipient := fun _ _ => .ok [] }

/-- A request to put an object. -/
def putRequest (bucket key idempotencyKey : String) : PutObjectRequest where
  tenantId := tenant
  bucket := bucket
  key := key
  accessProfile := .publicCiphertext
  payloadPlaintext := false
  contentType := ""
  encryptionProfileId := ⟨""⟩
  keyPolicyId := ⟨""⟩
  metadataVisibility := .split
  contentEncryptionSuite := "c"
  keyWrappingSuite := "k"
  wrappedObjectKeys := [⟨"", "", "", 1, none⟩]
  serverVisibleMetadata := ∅
  encryptedClientMetadata := ∅
  storageClass := "hot"
  idempotencyKey := idempotencyKey

/-- The manifest of an object that is put at time zero. -/
def putManifest (payload : List UInt8) : ManifestFields :=
  (putRequest "" "" "").description.manifestFields
    ((chunkCiphertext (deployment [] [] 0) payload).map (·.ref)) (.ofNat payload.length) 0

/-- The object with the bytes of the chunk. -/
def object : Manifest := ⟨putManifest chunk, by decide +kernel⟩

def objectCid : String := cid object.canonicalCborBytes

/-- A record about a key of the bucket `b`. -/
def keyRecord (key : String) (kind : NamespaceMutationKind) (targetCid : Option String)
    (ifRevision : Option UInt64) : NamespaceMutationFields :=
  { recordFields kind targetCid ifRevision with ns := "b", path := key }

theorem fits_bind : (keyRecord "k" .bind (some objectCid) none).canonicalValue.Fits := by
  decide +kernel

theorem fits_unbind : (keyRecord "k" .unbind none (some 1)).canonicalValue.Fits := by
  decide +kernel

/-- A request to upload an object in parts. -/
def multipartRequest (bucket key idempotencyKey : String) : CreateMultipartUploadRequest where
  tenantId := tenant
  bucket := bucket
  key := key
  accessProfile := .publicCiphertext
  payloadPlaintext := false
  contentType := ""
  encryptionProfileId := ⟨""⟩
  keyPolicyId := ⟨""⟩
  metadataVisibility := .split
  contentEncryptionSuite := "c"
  keyWrappingSuite := "k"
  wrappedObjectKeys := [⟨"", "", "", 1, none⟩]
  serverVisibleMetadata := ∅
  encryptedClientMetadata := ∅
  storageClass := "hot"
  idempotencyKey := idempotencyKey

/-- The identifier of an upload in parts that is started at a time. -/
def uploadId (bucket key : String) (now : ℕ) : String :=
  "multipart-" ++ cid (utf8 (bucket ++ ":" ++ key ++ ":" ++ toString now))

end Sample

end Hsp
