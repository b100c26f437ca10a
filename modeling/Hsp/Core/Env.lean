import Hsp.Core.Types

/-!
# What the server takes from outside

`Env` collects the functions of third-party crates and of the platform that the service calls:
SHA-256, COSE and CBOR decoding, Ed25519 and the clock, and the issuer registry the service was
configured with.  They are parameters.  The one assumption about them is a field: the digest is
collision free, and it is written in the base32 alphabet.

Content identifiers are defined here, and they determine what they identify:

* `manifestCid_inj` : manifests with the same identifier are equal;
* `recordCid_inj` : mutation records with the same identifier are equal.
-/

namespace Hsp

open List CanonicalValue

variable {k j : UInt64} {a : Option CanonicalValue} {x y l : List (UInt64 × CanonicalValue)}
  {b : NamespaceMutationRecord}

/-- A parsed `COSE_Sign1` message. -/
structure CoseSign1 where
  payload : Option (List UInt8)
  /-- `key_id` of the protected header. -/
  keyId : List UInt8
  signature : List UInt8
  /-- The bytes the signature is over. -/
  signingInput : List UInt8

/-- A decoded CBOR item, as far as cursors look at it. -/
inductive CiboriumValue where
  | integer (n : ℤ)
  | text (s : String)
  | map (entries : List (CiboriumValue × CiboriumValue))
  | other

structure IssuerRecord where
  issuer : String
  keyId : String
  algorithm : String
  publicKeyB64 : String
  audiences : List String

structure IssuerRegistry where
  issuers : List IssuerRecord

/-- A character of the lowercase base32 alphabet. -/
def isBase32 (c : Char) : Bool := ('a' ≤ c && c ≤ 'z') || ('2' ≤ c && c ≤ '7')

/-- The platform the service runs on. -/
structure Env where
  /-- SHA-256, in lowercase base32 without padding. -/
  digest : List UInt8 → String
  /-- SHA-256 is collision free. -/
  digest_injective : Function.Injective digest
  digest_alphabet : ∀ bytes, ∀ c ∈ (digest bytes).toList, isBase32 c
  /-- `CoseSign1::from_slice`. -/
  coseFromSlice : List UInt8 → Option CoseSign1
  /-- `ciborium::from_reader` at `NamespaceMutationRecord`. -/
  recordFromReader : List UInt8 → Option NamespaceMutationRecord
  /-- `ciborium::from_reader` at `ciborium::Value`. -/
  valueFromReader : List UInt8 → Option CiboriumValue
  /-- `VerifyingKey::from_bytes` accepts these 32 bytes. -/
  validVerifyingKey : List UInt8 → Bool
  /-- `VerifyingKey::verify`, at a key, a message and a signature. -/
  verify : List UInt8 → List UInt8 → List UInt8 → Bool
  /-- The reading of the system clock, in milliseconds, when it is read for the `n`-th time. -/
  clock : ℕ → ℕ
  /-- The issuer registry of the service, if it was given one. -/
  issuerRegistry : Option IssuerRegistry

variable (env : Env)

def cidFromBytes (bytes : List UInt8) : String := "sha256-" ++ env.digest bytes

def Manifest.manifestCid (m : Manifest) : String := cidFromBytes env m.canonicalCborBytes

def NamespaceMutationRecord.recordCid (r : NamespaceMutationRecord) : String :=
  cidFromBytes env r.canonicalCborBytes

variable {env}

theorem cidFromBytes_inj {a b : List UInt8} (h : cidFromBytes env a = cidFromBytes env b) :
    a = b := by
  refine env.digest_injective (String.toList_inj.1 ?_)
  have := congrArg String.toList h
  simpa [cidFromBytes, String.toList_append] using this

/-! ### Canonical values determine the records -/

theorem mem_optField {e : UInt64 × CanonicalValue} : e ∈ optField k a ↔ e.1 = k ∧ a = some e.2 := by
  obtain ⟨j, v⟩ := e
  cases a <;> simp [optField, eq_comm]

theorem optField_append_inj {b : Option CanonicalValue} (hx : ∀ e ∈ x, e.1 ≠ k)
    (hy : ∀ e ∈ y, e.1 ≠ k) (h : optField k a ++ x = optField k b ++ y) : a = b ∧ x = y := by
  cases a with
  | none =>
    cases b with
    | none => exact ⟨rfl, h⟩
    | some v => exact absurd rfl (hx (k, v) (by simp_all [optField]))
  | some v =>
    cases b with
    | none => exact absurd rfl (hy (k, v) (by simp [← show _ = y from h, optField]))
    | some v' => simpa [optField] using h

theorem optText_append_inj {a b : Option String} (hx : ∀ e ∈ x, e.1 ≠ k) (hy : ∀ e ∈ y, e.1 ≠ k)
    (h : optText k a ++ x = optText k b ++ y) : a = b ∧ x = y := by
  obtain ⟨hab, hxy⟩ := optField_append_inj hx hy h
  exact ⟨Option.map_injective (fun _ _ => text.inj) hab, hxy⟩

theorem optUnsigned_append_inj {a b : Option UInt64} (hx : ∀ e ∈ x, e.1 ≠ k) (hy : ∀ e ∈ y, e.1 ≠ k)
    (h : optUnsigned k a ++ x = optUnsigned k b ++ y) : a = b ∧ x = y := by
  obtain ⟨hab, hxy⟩ := optField_append_inj hx hy h
  exact ⟨Option.map_injective (fun _ _ => unsigned.inj) hab, hxy⟩

/-- All the keys of the entries are above `k`. -/
def KeysAbove (k : UInt64) (l : List (UInt64 × CanonicalValue)) : Prop := ∀ e ∈ l, k < e.1

theorem KeysAbove.ne (h : KeysAbove k l) :
    ∀ e ∈ l, e.1 ≠ k := fun e he => (UInt64.ne_of_lt (h e he)).symm

theorem KeysAbove.optField (h : KeysAbove k l) (hjk : j < k) : KeysAbove j (optField k a ++ l) := by
  intro e he
  rcases mem_append.1 he with he | he
  · rw [(mem_optField.1 he).1]
    exact hjk
  · exact UInt64.lt_trans hjk (h e he)

theorem KeysAbove.optText {a : Option String} (h : KeysAbove k l) (hjk : j < k) :
    KeysAbove j (optText k a ++ l) := h.optField hjk

theorem KeysAbove.optUnsigned {a : Option UInt64} (h : KeysAbove k l) (hjk : j < k) :
    KeysAbove j (optUnsigned k a ++ l) := h.optField hjk

theorem metadataMapToCanonicalValue_inj {a b : Metadata}
    (h : metadataMapToCanonicalValue a = metadataMapToCanonicalValue b) : a = b := by
  refine Std.ExtTreeMap.toList_inj.1 (map_injective_iff.2 ?_ (array.inj h))
  rintro ⟨k, v⟩ ⟨k', v'⟩ hkv
  simpa using hkv

theorem WrappedObjectKeyRecord.canonicalValue_injective :
    Function.Injective WrappedObjectKeyRecord.canonicalValue := by
  rintro ⟨a₁, a₂, a₃, a₄, a₅⟩ ⟨b₁, b₂, b₃, b₄, b₅⟩ h
  simp only [canonicalValue, map.injEq, cons_append, nil_append,
    cons.injEq, Prod.mk.injEq, text.injEq, unsigned.injEq,
    true_and] at h
  obtain ⟨h₁, h₂, h₃, h₄, h₅⟩ := h
  have h₅' := optText_append_inj (x := []) (y := []) (by simp) (by simp) (by simpa using h₅)
  have h₄' : a₄ = b₄ := by
    have := congrArg UInt64.toUInt32 h₄
    simpa using this
  rw [h₁, h₂, h₃, h₄', h₅'.1]

theorem VisibilityMode.asStr_injective : Function.Injective VisibilityMode.asStr := by
  intro a b h
  cases a <;> cases b <;> first | rfl | (revert h; decide)

theorem EncryptionDescriptor.canonicalValue_injective :
    Function.Injective EncryptionDescriptor.canonicalValue := by
  rintro ⟨⟨a₁⟩, ⟨a₂⟩, a₃, a₄, a₅, a₆, a₇, a₈⟩ ⟨⟨b₁⟩, ⟨b₂⟩, b₃, b₄, b₅, b₆, b₇, b₈⟩ h
  simp only [canonicalValue, map.injEq, cons.injEq, Prod.mk.injEq,
    text.injEq, array.injEq, true_and, and_true] at h
  obtain ⟨h₁, h₂, h₃, h₄, h₅, h₆, h₇, h₈⟩ := h
  rw [h₁, h₂, h₃, h₄, VisibilityMode.asStr_injective h₅,
    map_injective_iff.2 WrappedObjectKeyRecord.canonicalValue_injective h₆,
    metadataMapToCanonicalValue_inj h₇, metadataMapToCanonicalValue_inj h₈]

theorem ChunkRef.canonicalValue_injective : Function.Injective ChunkRef.canonicalValue := by
  rintro ⟨a₁, a₂, a₃, a₄, a₅, a₆⟩ ⟨b₁, b₂, b₃, b₄, b₅, b₆⟩ h
  simp only [canonicalValue, map.injEq, cons.injEq, Prod.mk.injEq,
    text.injEq, unsigned.injEq, true_and, and_true] at h
  obtain ⟨h₂, h₁, h₃, h₄, h₅, h₆⟩ := h
  have h₁' : a₁ = b₁ := by
    have := congrArg UInt64.toUInt32 h₁
    simpa using this
  rw [h₁', h₂, h₃, h₄, h₅, h₆]

theorem ManifestFields.canonicalValue_injective :
    Function.Injective ManifestFields.canonicalValue := by
  rintro ⟨a₁, ⟨a₂⟩, a₃, a₄, a₅, a₆, a₇, a₈, a₉⟩ ⟨b₁, ⟨b₂⟩, b₃, b₄, b₅, b₆, b₇, b₈, b₉⟩ h
  simp only [canonicalValue, map.injEq, cons.injEq, Prod.mk.injEq,
    text.injEq, unsigned.injEq, array.injEq,
    true_and, and_true] at h
  obtain ⟨h₁, h₂, h₃, h₄, h₅, h₆, h₇, h₈, h₉⟩ := h
  have h₁' : a₁ = b₁ := by
    have := congrArg UInt64.toUInt8 h₁
    simpa using this
  rw [h₁', h₂, h₃, h₄, h₅, map_injective_iff.2 ChunkRef.canonicalValue_injective h₆, h₇, h₈,
    EncryptionDescriptor.canonicalValue_injective h₉]

theorem NamespaceMutationKind.asStr_injective : Function.Injective NamespaceMutationKind.asStr := by
  intro a b h
  cases a <;> cases b <;> first | rfl | (revert h; decide)

theorem NamespaceMutationFields.canonicalValue_injective :
    Function.Injective NamespaceMutationFields.canonicalValue := by
  rintro ⟨a₁, ⟨a₂⟩, a₃, a₄, a₅, a₆, a₇, a₈, a₉, a₁₀⟩ ⟨b₁, ⟨b₂⟩, b₃, b₄, b₅, b₆, b₇, b₈, b₉, b₁₀⟩ h
  simp only [canonicalValue, map.injEq, append_assoc, cons_append,
    nil_append, cons.injEq, Prod.mk.injEq, text.injEq,
    unsigned.injEq, true_and] at h
  obtain ⟨h₁, h₂, h₃, h₄, h₅, h⟩ := h
  -- The keys ascend, so what follows an optional field never carries its key.
  have tail (m : Metadata) (t : UInt64) :
      KeysAbove 8 [(9, metadataMapToCanonicalValue m), (10, .unsigned t)] := by simp [KeysAbove]
  have ka := tail a₉ a₁₀
  have kb := tail b₉ b₁₀
  have ka' := ka.optUnsigned (a := a₈) (j := 7) (by decide)
  have kb' := kb.optUnsigned (a := b₈) (j := 7) (by decide)
  obtain ⟨h₆, h⟩ := optText_append_inj (ka'.optUnsigned (by decide)).ne
    (kb'.optUnsigned (by decide)).ne h
  obtain ⟨h₇, h⟩ := optUnsigned_append_inj ka'.ne kb'.ne h
  obtain ⟨h₈, h⟩ := optUnsigned_append_inj ka.ne kb.ne h
  simp only [cons.injEq, Prod.mk.injEq, unsigned.injEq, true_and, and_true] at h
  have h₁' : a₁ = b₁ := by
    have := congrArg UInt64.toUInt8 h₁
    simpa using this
  rw [h₁', h₂, h₃, h₄, NamespaceMutationKind.asStr_injective h₅, h₆, h₇, h₈,
    metadataMapToCanonicalValue_inj h.1, h.2]

theorem Manifest.canonicalValue_inj {a b : Manifest} (h : a.canonicalValue = b.canonicalValue) :
    a = b := by
  obtain ⟨a, ha⟩ := a
  obtain ⟨b, hb⟩ := b
  obtain rfl := ManifestFields.canonicalValue_injective h
  rfl

theorem NamespaceMutationRecord.canonicalValue_inj {a : NamespaceMutationRecord}
    (h : a.canonicalValue = b.canonicalValue) : a = b := by
  obtain ⟨a, ha⟩ := a
  obtain ⟨b, hb⟩ := b
  obtain rfl := NamespaceMutationFields.canonicalValue_injective h
  rfl

/-- **A manifest is determined by its identifier.** -/
theorem manifestCid_inj {a b : Manifest} (h : a.manifestCid env = b.manifestCid env) : a = b :=
  Manifest.canonicalValue_inj (encodeCanonicalCbor_inj a.fits b.fits (cidFromBytes_inj h))

/-- **A mutation record is determined by its identifier.** -/
theorem recordCid_inj {a : NamespaceMutationRecord} (h : a.recordCid env = b.recordCid env) :
    a = b :=
  NamespaceMutationRecord.canonicalValue_inj
    (encodeCanonicalCbor_inj a.fits b.fits (cidFromBytes_inj h))

end Hsp
