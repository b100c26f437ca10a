import Hsp.Distribution.Store

/-!
# Store envelopes

`LocalDevKms` encrypts every record of the store under a data key of its own, and the data key under
a key that is derived from the tenant and the kind of the store.  Both ciphertexts, with their
nonces, make up a `StoredEnvelope`.

The fields of an envelope that name the tenant and the kind are not authenticated, and the
associated data joins the two names with a colon that may be in either of them.  What ties an
envelope to its place is the derived key: `locked_envelope` shows that an envelope put together from
parts of others is opened only if its two ciphertexts come from one encryption for this tenant and
this kind.

The primitives are parameters.  AES-GCM is ideal: a ciphertext is opened with nothing but the key,
the nonce and the associated data it was made with.
-/

namespace Hsp.Crypto

open List

open Hsp.Distribution (CryptoError)

/-- An array of `n` bytes. -/
abbrev Bytes (n : ℕ) := { bytes : List UInt8 // bytes.length = n }

/-- The primitives of the key management. -/
structure Primitives where
  /-- `Hkdf::<Sha256>::new(salt, ikm).expand(info)`, for 32 bytes. -/
  expand : (salt ikm info : List UInt8) → Option (Bytes 32)
  /-- `Aes256Gcm::encrypt`. -/
  aesEncrypt : (key : Bytes 32) → (nonce : Bytes 12) → (msg aad : List UInt8) →
    Option (List UInt8)
  /-- `Aes256Gcm::decrypt`. -/
  aesDecrypt : (key : Bytes 32) → (nonce : Bytes 12) → (ciphertext aad : List UInt8) →
    Option (List UInt8)
  /-- What was encrypted can be decrypted. -/
  decrypt_encrypt : ∀ key nonce msg aad ciphertext,
    aesEncrypt key nonce msg aad = some ciphertext →
      aesDecrypt key nonce ciphertext aad = some msg
  /-- A ciphertext is opened only with what it was made with. -/
  decrypt_exact : ∀ key nonce msg aad ciphertext key' nonce' aad' msg',
    aesEncrypt key nonce msg aad = some ciphertext →
      aesDecrypt key' nonce' ciphertext aad' = some msg' → key' = key ∧ msg' = msg
  /-- `STANDARD_NO_PAD`. -/
  b64Encode : List UInt8 → String
  b64Decode : String → Option (List UInt8)
  b64_round_trip : ∀ bytes, b64Decode (b64Encode bytes) = some bytes

structure StoredEnvelope where
  keyVersion : UInt32
  tenantId : String
  storeKind : String
  wrappedDekB64 : String
  wrapNonceB64 : String
  dataNonceB64 : String
  ciphertextB64 : String
  deriving DecidableEq

structure LocalDevKms where
  rootSeed : Bytes 32
  keyVersion : UInt32

/-- What an encryption draws at random. -/
structure Randomness where
  dataKey : Bytes 32
  wrapNonce : Bytes 12
  dataNonce : Bytes 12
  deriving DecidableEq

def aad (tenantId : TenantId) (storeKind : String) : String :=
  "hsp:" ++ tenantId.val ++ ":" ++ storeKind

/-- Go on with a result that must be there. -/
def orError {α : Type} (x : Option α) (error : CryptoError) : Except CryptoError α :=
  match x with
  | some a => .ok a
  | none => .error error

section Kms

variable (p : Primitives) (kms : LocalDevKms)

def decodeFixed (n : ℕ) (input : String) (error : CryptoError) : Except CryptoError (Bytes n) := do
  let decoded ← orError (p.b64Decode input) error
  if h : decoded.length = n then return ⟨decoded, h⟩ else throw error

/-- The info string of a derivation. -/
def contextInfo (context label : String) : String := context ++ ":" ++ label

def deriveContextKey (tenantId : TenantId) (context label : String) :
    Except CryptoError (Bytes 32) :=
  orError (p.expand kms.rootSeed.val (utf8 tenantId.val) (utf8 (contextInfo context label)))
    .encryptionFailed

def encryptAesGcm (keyMaterial : Bytes 32) (nonce : Bytes 12) (plaintext aad : List UInt8) :
    Except CryptoError (List UInt8) :=
  orError (p.aesEncrypt keyMaterial nonce plaintext aad) .encryptionFailed

def decryptAesGcm (keyMaterial : Bytes 32) (nonce : Bytes 12) (ciphertext aad : List UInt8) :
    Except CryptoError (List UInt8) :=
  orError (p.aesDecrypt keyMaterial nonce ciphertext aad) .decryptionFailed

def encryptStorePayload (random : Randomness) (tenantId : TenantId) (storeKind : String)
    (plaintext : List UInt8) : Except CryptoError StoredEnvelope := do
  let kek ← deriveContextKey p kms tenantId storeKind "store-kek"
  let wrapped ← encryptAesGcm p kek random.wrapNonce random.dataKey.val
    (utf8 (aad tenantId storeKind))
  let encryptedPayload ← encryptAesGcm p random.dataKey random.dataNonce plaintext
    (utf8 (aad tenantId storeKind))
  return {
    keyVersion := kms.keyVersion
    tenantId := tenantId.val
    storeKind
    wrappedDekB64 := p.b64Encode wrapped
    wrapNonceB64 := p.b64Encode random.wrapNonce.val
    dataNonceB64 := p.b64Encode random.dataNonce.val
    ciphertextB64 := p.b64Encode encryptedPayload }

def decryptStorePayload (tenantId : TenantId) (storeKind : String) (envelope : StoredEnvelope) :
    Except CryptoError (List UInt8) := do
  if envelope.tenantId ≠ tenantId.val ∨ envelope.storeKind ≠ storeKind then
    throw .invalidEnvelope
  let kek ← deriveContextKey p kms tenantId storeKind "store-kek"
  let wrapNonce ← decodeFixed p 12 envelope.wrapNonceB64 .invalidEnvelope
  let wrappedDek ← orError (p.b64Decode envelope.wrappedDekB64) .invalidEnvelope
  let dataKey ← decryptAesGcm p kek wrapNonce wrappedDek (utf8 (aad tenantId storeKind))
  if h : dataKey.length = 32 then
    let dataNonce ← decodeFixed p 12 envelope.dataNonceB64 .invalidEnvelope
    let ciphertext ← orError (p.b64Decode envelope.ciphertextB64) .invalidEnvelope
    decryptAesGcm p ⟨dataKey, h⟩ dataNonce ciphertext (utf8 (aad tenantId storeKind))
  else throw .invalidEnvelope

def rewrapStoreEnvelope (random : Randomness) (tenantId : TenantId) (storeKind : String)
    (envelope : StoredEnvelope) : Except CryptoError StoredEnvelope := do
  let plaintext ← decryptStorePayload p kms tenantId storeKind envelope
  encryptStorePayload p kms random tenantId storeKind plaintext

end Kms

/-! ### What the two operations do -/

section Spec

variable {p : Primitives} {kms : LocalDevKms} {random : Randomness} {tenantId : TenantId}
  {storeKind : String} {plaintext : List UInt8} {envelope : StoredEnvelope}

theorem orError_eq_ok {α : Type} {x : Option α} {error : CryptoError} {a : α} :
    orError x error = .ok a ↔ x = some a := by
  cases x <;> simp [orError]

theorem decodeFixed_eq_ok {n : ℕ} {input : String} {error : CryptoError} {bytes : Bytes n} :
    decodeFixed p n input error = .ok bytes ↔ p.b64Decode input = some bytes.val := by
  rw [decodeFixed, except_bind_eq_ok]
  simp only [orError_eq_ok]
  constructor
  · rintro ⟨decoded, hdecoded, h⟩
    split at h
    · cases h
      exact hdecoded
    · cases h
  · intro h
    refine ⟨bytes.val, h, ?_⟩
    rw [dif_pos bytes.property]
    rfl

/-- The two ciphertexts of an encryption. -/
structure Seals (p : Primitives) (kms : LocalDevKms) (random : Randomness) (tenantId : TenantId)
    (storeKind : String) (plaintext : List UInt8) (kek : Bytes 32)
    (wrapped ciphertext : List UInt8) : Prop where
  derived : p.expand kms.rootSeed.val (utf8 tenantId.val)
    (utf8 (contextInfo storeKind "store-kek")) = some kek
  wraps : p.aesEncrypt kek random.wrapNonce random.dataKey.val (utf8 (aad tenantId storeKind)) =
    some wrapped
  encrypts : p.aesEncrypt random.dataKey random.dataNonce plaintext
    (utf8 (aad tenantId storeKind)) = some ciphertext

theorem encryptStorePayload_ok
    (h : encryptStorePayload p kms random tenantId storeKind plaintext = .ok envelope) :
    ∃ kek wrapped ciphertext,
      Seals p kms random tenantId storeKind plaintext kek wrapped ciphertext ∧
      envelope = ⟨kms.keyVersion, tenantId.val, storeKind, p.b64Encode wrapped,
        p.b64Encode random.wrapNonce.val, p.b64Encode random.dataNonce.val,
        p.b64Encode ciphertext⟩ := by
  simp only [encryptStorePayload, deriveContextKey, encryptAesGcm, except_bind_eq_ok,
    orError_eq_ok, except_pure, Except.ok.injEq] at h
  obtain ⟨kek, hkek, wrapped, hwrapped, ciphertext, hciphertext, rfl⟩ := h
  exact ⟨kek, wrapped, ciphertext, ⟨hkek, hwrapped, hciphertext⟩, rfl⟩

/-- What it takes for an envelope to be opened. -/
theorem decryptStorePayload_eq_ok :
    decryptStorePayload p kms tenantId storeKind envelope = .ok plaintext ↔
      (envelope.tenantId = tenantId.val ∧ envelope.storeKind = storeKind) ∧
      ∃ (kek : Bytes 32) (wrapNonce : Bytes 12) (wrapped : List UInt8) (dataKey : Bytes 32)
        (dataNonce : Bytes 12) (ciphertext : List UInt8),
        p.expand kms.rootSeed.val (utf8 tenantId.val)
          (utf8 (contextInfo storeKind "store-kek")) = some kek ∧
        p.b64Decode envelope.wrapNonceB64 = some wrapNonce.val ∧
        p.b64Decode envelope.wrappedDekB64 = some wrapped ∧
        p.aesDecrypt kek wrapNonce wrapped (utf8 (aad tenantId storeKind)) = some dataKey.val ∧
        p.b64Decode envelope.dataNonceB64 = some dataNonce.val ∧
        p.b64Decode envelope.ciphertextB64 = some ciphertext ∧
        p.aesDecrypt dataKey dataNonce ciphertext (utf8 (aad tenantId storeKind)) =
          some plaintext := by
  simp only [decryptStorePayload, deriveContextKey, decryptAesGcm, except_throw, except_error_bind,
    except_guard_eq_ok, except_bind_eq_ok, orError_eq_ok, decodeFixed_eq_ok, not_or, not_not]
  constructor
  · rintro ⟨hplace, kek, hkek, wrapNonce, hwrapNonce, wrapped, hwrapped, dataKey, hdataKey, h⟩
    split at h
    · rename_i hlen
      simp only [except_bind_eq_ok, orError_eq_ok, decodeFixed_eq_ok] at h
      obtain ⟨dataNonce, hdataNonce, ciphertext, hciphertext, h⟩ := h
      exact ⟨hplace, kek, wrapNonce, wrapped, ⟨dataKey, hlen⟩, dataNonce, ciphertext, hkek,
        hwrapNonce, hwrapped, hdataKey, hdataNonce, hciphertext, h⟩
    · cases h
  · rintro ⟨hplace, kek, wrapNonce, wrapped, dataKey, dataNonce, ciphertext, hkek, hwrapNonce,
      hwrapped, hdataKey, hdataNonce, hciphertext, h⟩
    refine ⟨hplace, kek, hkek, wrapNonce, hwrapNonce, wrapped, hwrapped, dataKey.val, hdataKey, ?_⟩
    rw [dif_pos dataKey.property]
    simp only [except_bind_eq_ok, orError_eq_ok, decodeFixed_eq_ok]
    exact ⟨dataNonce, hdataNonce, ciphertext, hciphertext, h⟩

/-- An envelope is opened where it was made. -/
theorem decrypt_of_encrypt
    (h : encryptStorePayload p kms random tenantId storeKind plaintext = .ok envelope) :
    decryptStorePayload p kms tenantId storeKind envelope = .ok plaintext := by
  obtain ⟨kek, wrapped, ciphertext, hseals, rfl⟩ := encryptStorePayload_ok h
  rw [decryptStorePayload_eq_ok]
  exact ⟨⟨rfl, rfl⟩, kek, random.wrapNonce, wrapped, random.dataKey, random.dataNonce, ciphertext,
    hseals.derived, p.b64_round_trip _, p.b64_round_trip _,
    p.decrypt_encrypt _ _ _ _ _ hseals.wraps, p.b64_round_trip _, p.b64_round_trip _,
    p.decrypt_encrypt _ _ _ _ _ hseals.encrypts⟩

end Spec

/-! ### Envelopes put together from parts -/

/-- One encryption that was made. -/
structure Encryption where
  random : Randomness
  tenantId : TenantId
  storeKind : String
  plaintext : List UInt8
  envelope : StoredEnvelope

/-- The encryptions that were made, with what is assumed of their keys. -/
structure Made (p : Primitives) (kms : LocalDevKms) (made : List Encryption) : Prop where
  encrypted : ∀ e ∈ made,
    encryptStorePayload p kms e.random e.tenantId e.storeKind e.plaintext = .ok e.envelope
  /-- The data keys are pairwise distinct. -/
  distinct : ∀ e ∈ made, ∀ e' ∈ made, e.random.dataKey = e'.random.dataKey → e = e'

/-- The key derived for a place is derived for no other inputs among those that were used. -/
def DerivedApart (p : Primitives) (kms : LocalDevKms) (made : List Encryption)
    (tenantId : TenantId) (storeKind : String) : Prop :=
  ∀ e ∈ made, ∀ key, p.expand kms.rootSeed.val (utf8 tenantId.val)
      (utf8 (contextInfo storeKind "store-kek")) = some key →
    p.expand kms.rootSeed.val (utf8 e.tenantId.val)
      (utf8 (contextInfo e.storeKind "store-kek")) = some key →
    utf8 e.tenantId.val = utf8 tenantId.val ∧
      utf8 (contextInfo e.storeKind "store-kek") = utf8 (contextInfo storeKind "store-kek")

/-- The wrapped key and the ciphertext of the envelope are those of encryptions that were made,
perhaps of two of them; its other fields can be anything. -/
structure AssembledFrom (envelope : StoredEnvelope) (made : List Encryption) : Prop where
  wrapped : ∃ e ∈ made, envelope.wrappedDekB64 = e.envelope.wrappedDekB64
  ciphertext : ∃ e ∈ made, envelope.ciphertextB64 = e.envelope.ciphertextB64

theorem contextInfo_inj {a b label : String} (h : contextInfo a label = contextInfo b label) :
    a = b := by
  apply String.toList_inj.1
  have := congrArg String.toList h
  simpa [contextInfo, String.toList_append] using this

/-- **Envelopes are locked to their tenant and their kind.**  An envelope that is put together from
parts of others is opened only if its wrapped key and its ciphertext come from one encryption for
this tenant and this kind, and then it holds what was encrypted.  Wrapping an envelope anew keeps
what it holds. -/
theorem locked_envelope (p : Primitives) (kms : LocalDevKms) (made : List Encryption)
    (hmade : Made p kms made) (tenantId : TenantId) (storeKind : String)
    (hderived : DerivedApart p kms made tenantId storeKind) :
    (∀ envelope plaintext, AssembledFrom envelope made →
      decryptStorePayload p kms tenantId storeKind envelope = .ok plaintext →
      ∃ e ∈ made, e.tenantId = tenantId ∧ e.storeKind = storeKind ∧ e.plaintext = plaintext ∧
        envelope.wrappedDekB64 = e.envelope.wrappedDekB64 ∧
        envelope.ciphertextB64 = e.envelope.ciphertextB64) ∧
    ∀ random envelope rewrapped,
      rewrapStoreEnvelope p kms random tenantId storeKind envelope = .ok rewrapped →
      ∃ plaintext, decryptStorePayload p kms tenantId storeKind envelope = .ok plaintext ∧
        decryptStorePayload p kms tenantId storeKind rewrapped = .ok plaintext := by
  constructor
  · rintro envelope plaintext ⟨⟨e, he, hwrapped⟩, ⟨e', he', hciphertext⟩⟩ hopen
    obtain ⟨-, kek, wrapNonce, wrapped, dataKey, dataNonce, ciphertext, hkek, -, hdecoded, hkey, -,
      hdecoded', hplain⟩ := decryptStorePayload_eq_ok.1 hopen
    obtain ⟨kek₁, wrapped₁, ciphertext₁, hseals, henvelope⟩ :=
      encryptStorePayload_ok (hmade.encrypted e he)
    obtain ⟨kek₂, wrapped₂, ciphertext₂, hseals', henvelope'⟩ :=
      encryptStorePayload_ok (hmade.encrypted e' he')
    rw [hwrapped, henvelope, p.b64_round_trip, Option.some.injEq] at hdecoded
    rw [hciphertext, henvelope', p.b64_round_trip, Option.some.injEq] at hdecoded'
    subst hdecoded hdecoded'
    -- The wrapped key was opened, so the key derived here is the one it was wrapped under.
    obtain ⟨rfl, hdataKey⟩ := p.decrypt_exact _ _ _ _ _ _ _ _ _ hseals.wraps hkey
    obtain ⟨htenant, hkind⟩ := hderived e he kek hkek hseals.derived
    -- The ciphertext was opened with the data key that was wrapped.
    obtain ⟨hdataKey', rfl⟩ := p.decrypt_exact _ _ _ _ _ _ _ _ _ hseals'.encrypts hplain
    obtain rfl : e = e' :=
      hmade.distinct e he e' he' ((Subtype.ext hdataKey).symm.trans hdataKey')
    refine ⟨e, he, ?_, contextInfo_inj (utf8_inj hkind), rfl, hwrapped, hciphertext⟩
    cases ht : e.tenantId
    cases ht' : tenantId
    rw [ht, ht'] at htenant
    exact congrArg _ (utf8_inj htenant)
  · intro random envelope rewrapped h
    rw [rewrapStoreEnvelope, except_bind_eq_ok] at h
    obtain ⟨plaintext, hopen, hencrypt⟩ := h
    exact ⟨plaintext, hopen, decrypt_of_encrypt hencrypt⟩

namespace Sample

/-- Bytes that can be told from what follows them. -/
def delimited : List UInt8 → List UInt8
  | [] => [0]
  | b :: bs => 1 :: b :: delimited bs

theorem delimited_append_inj {a b x y : List UInt8} (h : delimited a ++ x = delimited b ++ y) :
    a = b ∧ x = y := by
  induction a generalizing b with
  | nil =>
    cases b with
    | nil => exact ⟨rfl, by simpa [delimited] using h⟩
    | cons c b => simp [delimited] at h
  | cons c a ih =>
    cases b with
    | nil => simp [delimited] at h
    | cons c' b =>
      simp only [delimited, cons_append, cons.injEq, true_and] at h
      obtain ⟨rfl, h⟩ := h
      obtain ⟨rfl, hxy⟩ := ih h
      exact ⟨rfl, hxy⟩

/-- What a message is sealed with. -/
def sealedWith (key : Bytes 32) (nonce : Bytes 12) (aad : List UInt8) : List UInt8 :=
  key.val ++ (nonce.val ++ delimited aad)

theorem sealedWith_append_inj {key key' : Bytes 32} {nonce nonce' : Bytes 12}
    {aad aad' msg msg' : List UInt8}
    (h : sealedWith key nonce aad ++ msg = sealedWith key' nonce' aad' ++ msg') :
    key = key' ∧ msg = msg' := by
  simp only [sealedWith, append_assoc] at h
  obtain ⟨hkey, h⟩ := append_inj h (key.property.trans key'.property.symm)
  obtain ⟨-, h⟩ := append_inj h (nonce.property.trans nonce'.property.symm)
  exact ⟨Subtype.ext hkey, (delimited_append_inj h).2⟩

/-- Primitives that carry in a ciphertext all it was made with. -/
def primitives : Primitives where
  expand _ ikm info := some ⟨(ikm ++ 0 :: info ++ List.replicate 32 0).take 32, by simp; omega⟩
  aesEncrypt key nonce msg aad := some (sealedWith key nonce aad ++ msg)
  aesDecrypt key nonce ciphertext aad :=
    if sealedWith key nonce aad <+: ciphertext then
      some (ciphertext.drop (sealedWith key nonce aad).length)
    else none
  decrypt_encrypt := by
    rintro key nonce msg aad _ ⟨⟩
    simp
  decrypt_exact := by
    rintro key nonce msg aad _ key' nonce' aad' msg' ⟨⟩ h
    split at h
    · rename_i hprefix
      obtain ⟨rest, hrest⟩ := hprefix
      rw [← hrest, drop_left, Option.some.injEq] at h
      obtain ⟨hkey, hmsg⟩ := sealedWith_append_inj hrest
      exact ⟨hkey, h.symm.trans hmsg⟩
    · cases h
  b64Encode := Base64.encode
  b64Decode := Base64.decode
  b64_round_trip := Base64.decode_encode

def kms : LocalDevKms := ⟨⟨List.replicate 32 0, rfl⟩, 1⟩

/-- An encryption that draws its data key from one byte. -/
def encryption (b : UInt8) (tenantId : TenantId) (storeKind : String) (plaintext : List UInt8) :
    Encryption where
  random := ⟨⟨List.replicate 32 b, rfl⟩, ⟨List.replicate 12 b, rfl⟩, ⟨List.replicate 12 b, rfl⟩⟩
  tenantId := tenantId
  storeKind := storeKind
  plaintext := plaintext
  envelope := ((encryptStorePayload primitives kms ⟨⟨List.replicate 32 b, rfl⟩,
    ⟨List.replicate 12 b, rfl⟩, ⟨List.replicate 12 b, rfl⟩⟩ tenantId storeKind
    plaintext).toOption).getD ⟨0, "", "", "", "", "", ""⟩

def first : Encryption := encryption 1 ⟨"t:k"⟩ "s" [1]

/-- An encryption for another tenant and another kind, with the same associated data. -/
def second : Encryption := encryption 2 ⟨"t"⟩ "k:s" [2]

theorem made_two : Made primitives kms [first, second] where
  encrypted := by
    simp only [forall_mem_cons]
    exact ⟨rfl, rfl, nofun⟩
  distinct := by
    simp only [forall_mem_cons]
    refine ⟨⟨fun _ => trivial, fun h => ?_, nofun⟩, ⟨fun h => ?_, fun _ => trivial, nofun⟩, nofun⟩
    · exact absurd h (by decide)
    · exact absurd h (by decide)

theorem derivedApart_first : DerivedApart primitives kms [first, second] ⟨"t:k"⟩ "s" := by
  simp only [DerivedApart, forall_mem_cons]
  refine ⟨fun _ _ _ => ⟨rfl, rfl⟩, fun key h h' => ?_, nofun⟩
  exact absurd (h.trans h'.symm) (by decide +kernel)

/-- The associated data of the two encryptions is the same, and still the second envelope cannot be
passed off as one of the first tenant. -/
theorem locked_envelope_two : aad ⟨"t:k"⟩ "s" = aad ⟨"t"⟩ "k:s" ∧
    decryptStorePayload primitives kms ⟨"t:k"⟩ "s" first.envelope = .ok [1] ∧
    ∀ plaintext, decryptStorePayload primitives kms ⟨"t:k"⟩ "s"
      { second.envelope with tenantId := "t:k", storeKind := "s" } ≠ .ok plaintext := by
  have hfirst := decrypt_of_encrypt (made_two.encrypted first mem_cons_self)
  refine ⟨by decide, hfirst, fun plaintext h => ?_⟩
  have hsecond : second ∈ [first, second] := mem_cons_of_mem _ mem_cons_self
  have hassembled : AssembledFrom { second.envelope with tenantId := "t:k", storeKind := "s" }
      [first, second] :=
    ⟨⟨second, hsecond, rfl⟩, ⟨second, hsecond, rfl⟩⟩
  obtain ⟨e, he, htenant, -, -, -, hciphertext⟩ := (locked_envelope primitives kms [first, second]
    made_two ⟨"t:k"⟩ "s" derivedApart_first).1 _ plaintext hassembled h
  simp only [mem_cons, not_mem_nil, or_false] at he
  rcases he with rfl | rfl
  · exact absurd hciphertext (by decide +kernel)
  · exact absurd htenant (by decide)

end Sample

end Hsp.Crypto
