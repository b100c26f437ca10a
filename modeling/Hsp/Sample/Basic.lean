import Hsp.Service.Call

/-!
# A sample deployment

A platform on which runs of the service can be computed.  Its digest writes every byte as two
letters, its signature scheme accepts everything, and a token is the position of a mutation record
in a table.  It shows that the assumptions of `Env` can be met, and the runs that separate the
service from its contract are computed on it.
-/

namespace Hsp

open List

namespace Sample

/-- One of sixteen letters. -/
def letter (n : ℕ) : Char := Char.ofNat (97 + n)

theorem letter_inj : ∀ a b : Fin 16, letter a = letter b → a = b := by decide

theorem letter_isBase32 : ∀ a : Fin 16, isBase32 (letter a) := by decide

/-- A byte as two letters. -/
def letters (b : UInt8) : List Char := [letter (b.toNat / 16), letter (b.toNat % 16)]

theorem letters_inj {a b : UInt8} (h : letters a = letters b) : a = b := by
  have ha := a.toNat_lt
  have hb := b.toNat_lt
  simp only [letters, cons.injEq, and_true] at h
  have hhigh := letter_inj ⟨a.toNat / 16, by omega⟩ ⟨b.toNat / 16, by omega⟩ h.1
  have hlow := letter_inj ⟨a.toNat % 16, by omega⟩ ⟨b.toNat % 16, by omega⟩ h.2
  simp only [Fin.mk.injEq] at hhigh hlow
  exact UInt8.toNat_inj.1 (by omega)

def digest (bytes : List UInt8) : String := String.ofList (bytes.flatMap letters)

theorem flatMap_letters_injective : Function.Injective (List.flatMap letters) := by
  intro xs
  induction xs with
  | nil =>
    intro ys h
    cases ys with
    | nil => rfl
    | cons y ys => simp [letters] at h
  | cons x xs ih =>
    intro ys h
    cases ys with
    | nil => simp [letters] at h
    | cons y ys =>
      simp only [flatMap_cons] at h
      obtain ⟨hxy, htail⟩ := append_inj h rfl
      rw [letters_inj hxy, ih htail]

theorem digest_injective : Function.Injective digest := fun _ _ h =>
  flatMap_letters_injective (String.ofList_injective h)

theorem digest_alphabet (bytes : List UInt8) : ∀ c ∈ (digest bytes).toList, isBase32 c := by
  intro c hc
  simp only [digest, String.toList_ofList, mem_flatMap, letters] at hc
  obtain ⟨b, -, hc⟩ := hc
  have hb := b.toNat_lt
  rcases mem_cons.1 hc with rfl | hc
  · exact letter_isBase32 ⟨b.toNat / 16, by omega⟩
  · rw [mem_singleton.1 hc]
    exact letter_isBase32 ⟨b.toNat % 16, by omega⟩

/-- The platform whose issuer has signed the given records. -/
def env (records : List NamespaceMutationRecord) : Env where
  digest
  digest_injective
  digest_alphabet
  coseFromSlice bytes := some ⟨some bytes, utf8 "key", List.replicate 64 0, []⟩
  recordFromReader
    | [i] => records[i.toNat]?
    | _ => none
  valueFromReader _ := none
  validVerifyingKey _ := true
  verify _ _ _ := true
  clock _ := 0
  issuerRegistry := some ⟨[⟨"issuer", "key", "Ed25519", Base64.encode (List.replicate 32 0), []⟩]⟩

/-- The token of a record. -/
def token (i : UInt8) : String := Base64.encode [i]

def tenant : TenantId := ⟨"t"⟩

/-- A caller with a fresh token. -/
def auth (jti : String) : AuthContext where
  claims := {
    iss := "issuer", sub := "s", aud := "a", exp := 1, nbf := none, jti := some jti
    ops := [.read, .write, .adminRepair], tenantId := tenant
    namespacePrefix := none, pathPrefix := none, maxObjectSize := none, storageClasses := []
    keyPolicyId := none, metadataVisibility := none }
  channelBinding := some ⟨"", "", ""⟩

/-- The content identifier of some bytes. -/
def cid (bytes : List UInt8) : String := "sha256-" ++ digest bytes

/-- The bytes of the only chunk that is uploaded. -/
def chunk : List UInt8 := [7]

/-- The fields of a manifest with the given sizes and chunks. -/
def manifestFields (logicalSize storedSize : UInt64) (chunkRefs : List ChunkRef) :
    ManifestFields where
  version := 1
  tenantId := tenant
  logicalSize := logicalSize
  storedSize := storedSize
  chunker := ""
  chunkRefs := chunkRefs
  contentType := ""
  createdAtMs := 0
  encryptionDescriptor := {
    encryptionProfileId := ⟨""⟩, keyPolicyId := ⟨""⟩, contentEncryptionSuite := "c"
    keyWrappingSuite := "k", metadataVisibility := .split
    wrappedObjectKeys := [⟨"", "", "", 1, none⟩], serverVisibleMetadata := ∅
    encryptedClientMetadata := ∅ }

/-- The object made of the chunk. -/
def manifest : Manifest := ⟨manifestFields 1 1 [⟨0, cid chunk, 0, 1, 1, ""⟩], by decide +kernel⟩

def manifestCid : String := cid manifest.canonicalCborBytes

theorem exists_ok {α : Type} {r : Except ApiError α} (h : r.isOk) : ∃ a, r = .ok a := by
  cases r with
  | error e => cases h
  | ok a => exact ⟨a, rfl⟩

/-- A record about the path `p` of the namespace `n`. -/
def recordFields (kind : NamespaceMutationKind) (targetCid : Option String)
    (ifRevision : Option UInt64) : NamespaceMutationFields where
  version := 1
  tenantId := tenant
  ns := "n"
  path := "p"
  kind := kind
  targetCid := targetCid
  ifRevision := ifRevision
  ttlMs := none
  metadata := ∅
  issuedAtMs := 0

/-- The object is bound to the path if the path is not bound. -/
def bindRecord : NamespaceMutationRecord :=
  ⟨recordFields .bind (some manifestCid) none, by decide +kernel⟩

/-- The object is bound to the path `q`. -/
def otherRecord : NamespaceMutationRecord :=
  ⟨{ recordFields .bind (some manifestCid) none with path := "q" }, by decide +kernel⟩

/-- The binding of revision 1 is removed. -/
def unbindRecord : NamespaceMutationRecord :=
  ⟨recordFields .unbind none (some 1), by decide +kernel⟩

def putInit (jti : String) (m : Manifest) (atomicBind : Option AtomicBindRequest) : Call :=
  .putInit (auth jti) ⟨tenant, m, jti, ⟨""⟩, ⟨""⟩, .split, "", atomicBind⟩

def putChunk (jti : String) (m : Manifest) : Call :=
  .putChunk (auth jti) ⟨tenant, "session-" ++ cid m.canonicalCborBytes, 0, cid chunk, 0, 1⟩ chunk

def putCommit (jti : String) (m : Manifest) : Call :=
  .putCommit (auth jti) ⟨tenant, "session-" ++ cid m.canonicalCborBytes,
    cid m.canonicalCborBytes, jti⟩

/-- The bind of a commit, by the record a token stands for. -/
def atomicBind (record : UInt8) : AtomicBindRequest := ⟨"n", "p", none, ∅, none, token record⟩

/-- The object is uploaded. -/
def upload : List Call := [putInit "1" manifest none, putChunk "2" manifest, putCommit "3" manifest]

/-- The object is bound to the path, by the record a token stands for. -/
def bind (jti : String) (record : UInt8) : Call :=
  .bind (auth jti) ⟨tenant, "n", "p", manifestCid, none, true, ∅, none, jti, token record⟩

def unbind (jti : String) (record : UInt8) : Call :=
  .unbind (auth jti) ⟨tenant, "n", "p", 1, false, jti, token record⟩

end Sample

end Hsp
