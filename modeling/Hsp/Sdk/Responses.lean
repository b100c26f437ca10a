import Hsp.Object.Metadata
import Hsp.Object.Ranges
import Hsp.Sdk.Validation

/-!
# The responses that the Go client accepts

The server says that the encrypted metadata of an object are redacted if there are any.  The client
rejects every response that does not say so, unless the metadata are visible to the server.

* `accepted_iff` : which responses to `HEAD` and `GET` the client accepts.
-/

namespace Hsp.Sdk

variable {env : Env}

/-- There are encrypted metadata to redact, or all metadata are visible to the server. -/
def Presentable (m : Manifest) : Prop :=
  m.encryptionDescriptor.encryptedClientMetadata.isEmpty = false ∨
    m.encryptionDescriptor.metadataVisibility = .serverVisible

theorem validateObjectMeta_objectMeta (resolution : SelectorResolution) (record : ManifestRecord) :
    validateObjectMeta (objectMeta resolution record) = .ok () ↔ Presentable record.manifest := by
  unfold validateObjectMeta Presentable objectMeta
  cases record.manifest.encryptionDescriptor.encryptedClientMetadata.isEmpty <;> simp

section Runs

variable {calls : List Call} {t : TenantId} {cid : String} {record : ManifestRecord} {m : Manifest}

/-- The record that an answer was made of is the one of the manifest it names. -/
theorem manifest_of_named {resolution : SelectorResolution}
    (hrecord : (runCalls env calls World.empty).store (.manifests t cid) = some record)
    (hnamed : (objectMeta resolution record).manifestCid = m.manifestCid env) :
    record.manifest = m := by
  have hcid : record.manifestCid = cid := (recordsNamed_run env calls t cid record hrecord).2
  exact manifestCid_inj (((consistent_run env calls).manifest t cid record hrecord).trans
    (hcid.symm.trans hnamed))

/-- **The responses that the client accepts**: those about objects with encrypted metadata, and
about objects whose metadata are visible to the server. -/
theorem accepted_iff (env : Env) (calls : List Call) (m : Manifest) :
    (∀ auth request response,
      (Prog.runE (exec env) (head env auth request) (runCalls env calls World.empty)).1 =
        .ok response → response.manifestCid = m.manifestCid env →
      (validateHeadResponse response = .ok () ↔ Presentable m)) ∧
    (∀ auth request response,
      (Prog.runE (exec env) (get env auth request) (runCalls env calls World.empty)).1 =
        .ok response → response.meta.manifestCid = m.manifestCid env →
      (validateGetResponseMeta response.meta = .ok () ↔ Presentable m)) := by
  constructor
  · intro auth request response h hnamed
    obtain ⟨resolution, record, -, hrecord, rfl⟩ := head_ok (Prod.ext h rfl)
    rw [validateHeadResponse, validateObjectMeta_objectMeta, manifest_of_named hrecord hnamed]
  · intro auth request response h hnamed
    obtain ⟨resolution, record, _, -, -, hrecord, -, hget⟩ := get_ok (Prod.ext h rfl)
    have hmeta := (fragments_of_getObject hget).1
    rw [hmeta] at hnamed
    rw [validateGetResponseMeta, hmeta, validateObjectMeta_objectMeta,
      manifest_of_named hrecord hnamed]

end Runs

end Hsp.Sdk

namespace Hsp.Sample

open Sdk

/-- The object with encrypted metadata. -/
def redactedManifest : Manifest :=
  ⟨{ manifest.toManifestFields with
      encryptionDescriptor := { manifest.encryptionDescriptor with
        encryptedClientMetadata := .ofList [("k", "v")] } }, by decide +kernel⟩

/-- An object is uploaded. -/
def deliver (m : Manifest) : World :=
  runCalls (env []) [putInit "1" m none, putChunk "2" m, putCommit "3" m] World.empty

/-- The object is read by its identifier. -/
def headOf (m : Manifest) : Except ApiError HeadResponse :=
  (Prog.runE (exec (env [])) (head (env []) (auth "4")
    ⟨tenant, ⟨.cid, some (m.manifestCid (env [])), none, none⟩⟩) (deliver m)).1

def objectOf (m : Manifest) : Except ApiError GetResponse :=
  (Prog.runE (exec (env [])) (get (env []) (auth "5")
    ⟨tenant, ⟨.cid, some (m.manifestCid (env [])), none, none⟩, none, none⟩) (deliver m)).1

/-- An object with encrypted metadata is accepted. -/
theorem sealed_accepted :
    (∃ response, headOf redactedManifest = .ok response ∧
      validateHeadResponse response = .ok ()) ∧
    (∃ response, objectOf redactedManifest = .ok response ∧
      validateGetResponseMeta response.meta = .ok ()) := by
  have hpresentable : Presentable redactedManifest := .inl (by decide +kernel)
  have hnamed : (headOf redactedManifest).map (·.manifestCid) =
      .ok (redactedManifest.manifestCid (env [])) ∧
      (objectOf redactedManifest).map (·.meta.manifestCid) =
        .ok (redactedManifest.manifestCid (env [])) := by decide +kernel
  obtain ⟨hhead, hget⟩ := accepted_iff (env [])
    [putInit "1" redactedManifest none, putChunk "2" redactedManifest,
      putCommit "3" redactedManifest] redactedManifest
  obtain ⟨hnamed, hnamed'⟩ := hnamed
  constructor
  · cases h : headOf redactedManifest with
    | error e => rw [h] at hnamed; cases hnamed
    | ok response =>
      rw [h] at hnamed
      exact ⟨response, rfl, (hhead _ _ response h (Except.ok.inj hnamed)).2 hpresentable⟩
  · cases h : objectOf redactedManifest with
    | error e => rw [h] at hnamed'; cases hnamed'
    | ok response =>
      rw [h] at hnamed'
      exact ⟨response, rfl, (hget _ _ response h (Except.ok.inj hnamed')).2 hpresentable⟩

/-- An object without encrypted metadata is rejected. -/
theorem plain_rejected :
    (headOf manifest).map validateHeadResponse = .ok (.error redactionViolation) ∧
      (objectOf manifest).map (validateGetResponseMeta ·.meta) =
        .ok (.error redactionViolation) := by
  decide +kernel

end Hsp.Sample
