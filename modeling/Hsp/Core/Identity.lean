import Hsp.Core.Env

/-!
# Content identifiers

Three kinds of records have a content identifier: manifests, namespace mutation records and event
records.  All three are hashed over a map with small integer keys, and the keys overlap.
`Identified.cid_injective` says that an identifier determines both the kind of the record and every
field of it.
-/

namespace Hsp

open CanonicalValue

def EventType.asStr : EventType → String
  | .objectCommitted => "object.committed"
  | .namespaceBound => "namespace.bound"
  | .namespaceUnbound => "namespace.unbound"
  | .namespaceTombstoned => "namespace.tombstoned"
  | .authDenied => "auth.denied"
  | .pinAccepted => "pin.accepted"

def EventRecord.canonicalValue (e : EventRecord) : CanonicalValue :=
  .map ([(0, .unsigned e.version.toUInt64), (1, .unsigned (.ofNat e.seq)),
    (2, .unsigned (.ofNat e.atMs)), (3, .text e.eventType.asStr), (4, .text e.subjectKind)] ++
    optText 5 e.ns ++ optText 6 e.path ++ optText 7 e.cid ++
    optUnsigned 8 (e.revision.map .ofNat) ++ optText 9 e.traceId ++
    [(10, metadataMapToCanonicalValue e.payload)])

/-- An event record with its numbers in the range of the source's `u64` fields. -/
structure BoundedEventRecord extends EventRecord where
  seq_lt : seq < 2 ^ 64
  atMs_lt : atMs < 2 ^ 64
  revision_lt : ∀ r ∈ revision, r < 2 ^ 64
  /-- A record is a value in memory: its strings and lists are shorter than `2 ^ 64`. -/
  fits : toEventRecord.canonicalValue.Fits

def EventRecord.canonicalCborBytes (e : EventRecord) : List UInt8 :=
  encodeCanonicalCbor e.canonicalValue

def EventRecord.eventCid (env : Env) (e : EventRecord) : String :=
  cidFromBytes env e.canonicalCborBytes

theorem EventType.asStr_injective : Function.Injective EventType.asStr := by
  intro a b h
  cases a <;> cases b <;> first | rfl | (revert h; decide)

/-- An event record in the range of its fields is determined by its canonical value. -/
theorem BoundedEventRecord.canonicalValue_inj {a b : BoundedEventRecord}
    (h : a.canonicalValue = b.canonicalValue) : a = b := by
  obtain ⟨⟨a₁, a₂, a₃, a₄, a₅, a₆, a₇, a₈, a₉, a₁₀, a₁₁⟩, ha₂, ha₃, ha₉, _⟩ := a
  obtain ⟨⟨b₁, b₂, b₃, b₄, b₅, b₆, b₇, b₈, b₉, b₁₀, b₁₁⟩, hb₂, hb₃, hb₉, _⟩ := b
  simp only [EventRecord.canonicalValue, map.injEq, List.append_assoc,
    List.cons_append, List.nil_append, List.cons.injEq, Prod.mk.injEq, text.injEq,
    unsigned.injEq, true_and] at h
  obtain ⟨h₁, h₂, h₃, h₄, h₅, h⟩ := h
  have above (m : Metadata) : KeysAbove 9 [(10, metadataMapToCanonicalValue m)] := by
    simp [KeysAbove]
  have h10 := above a₁₁
  have k10 := above b₁₁
  have h9 := h10.optText (a := a₁₀) (j := 8) (by decide)
  have k9 := k10.optText (a := b₁₀) (j := 8) (by decide)
  have h8 := h9.optUnsigned (a := a₉.map .ofNat) (j := 7) (by decide)
  have k8 := k9.optUnsigned (a := b₉.map .ofNat) (j := 7) (by decide)
  have h7 := h8.optText (a := a₈) (j := 6) (by decide)
  have k7 := k8.optText (a := b₈) (j := 6) (by decide)
  have h6 := h7.optText (a := a₇) (j := 5) (by decide)
  have k6 := k7.optText (a := b₇) (j := 5) (by decide)
  obtain ⟨h₆, h⟩ := optText_append_inj h6.ne k6.ne h
  obtain ⟨h₇, h⟩ := optText_append_inj h7.ne k7.ne h
  obtain ⟨h₈, h⟩ := optText_append_inj h8.ne k8.ne h
  obtain ⟨h₉, h⟩ := optUnsigned_append_inj h9.ne k9.ne h
  obtain ⟨h₁₀, h⟩ := optText_append_inj h10.ne k10.ne h
  simp only [List.cons.injEq, Prod.mk.injEq, true_and, and_true] at h
  have h₁' : a₁ = b₁ := by
    have := congrArg UInt64.toUInt8 h₁
    simpa using this
  have h₉' : a₉ = b₉ := by
    cases a₉ with
    | none =>
      cases b₉ with
      | none => rfl
      | some r' => simp at h₉
    | some r =>
      cases b₉ with
      | none => simp at h₉
      | some r' => rw [ofNat_length_inj (ha₉ r rfl) (hb₉ r' rfl) (by simpa using h₉)]
  obtain rfl := ofNat_length_inj ha₂ hb₂ h₂
  obtain rfl := ofNat_length_inj ha₃ hb₃ h₃
  obtain rfl := EventType.asStr_injective h₄
  obtain rfl := metadataMapToCanonicalValue_inj h
  subst h₁' h₅ h₆ h₇ h₈ h₉' h₁₀
  rfl

/-- A record with a content identifier. -/
inductive Identified where
  | manifest (m : Manifest)
  | mutation (r : NamespaceMutationRecord)
  | event (e : BoundedEventRecord)

/-- The value a record is hashed as. -/
def Identified.canonicalValue : Identified → CanonicalValue
  | .manifest m => m.canonicalValue
  | .mutation r => r.canonicalValue
  | .event e => e.canonicalValue

/-- `manifest_cid`, `record_cid` and `event_cid`. -/
def Identified.cid (env : Env) : Identified → String
  | .manifest m => m.manifestCid env
  | .mutation r => r.recordCid env
  | .event e => e.eventCid env

theorem Identified.fits (x : Identified) : x.canonicalValue.Fits := by
  cases x with
  | manifest m => exact m.fits
  | mutation r => exact r.fits
  | event e => exact e.fits

theorem Identified.cid_eq (env : Env) (x : Identified) :
    x.cid env = cidFromBytes env (encodeCanonicalCbor x.canonicalValue) := by
  cases x <;> rfl

/-- Only an event has the key 0; the entry of key 3 is a number in a manifest and a text in a
mutation record. -/
theorem Identified.canonicalValue_injective : Function.Injective Identified.canonicalValue := by
  intro a b h
  cases a with
  | manifest m =>
    cases b with
    | manifest m' => exact congrArg _ (Manifest.canonicalValue_inj h)
    | mutation r => simp [canonicalValue, ManifestFields.canonicalValue,
        NamespaceMutationFields.canonicalValue] at h
    | event e => simp [canonicalValue, ManifestFields.canonicalValue,
        EventRecord.canonicalValue] at h
  | mutation r =>
    cases b with
    | manifest m => simp [canonicalValue, ManifestFields.canonicalValue,
        NamespaceMutationFields.canonicalValue] at h
    | mutation r' => exact congrArg _ (NamespaceMutationRecord.canonicalValue_inj h)
    | event e => simp [canonicalValue, NamespaceMutationFields.canonicalValue,
        EventRecord.canonicalValue] at h
  | event e =>
    cases b with
    | manifest m => simp [canonicalValue, ManifestFields.canonicalValue,
        EventRecord.canonicalValue] at h
    | mutation r => simp [canonicalValue, NamespaceMutationFields.canonicalValue,
        EventRecord.canonicalValue] at h
    | event e' => exact congrArg _ (BoundedEventRecord.canonicalValue_inj h)

/-- **Identifiers bind every field and the kind of the record.** -/
theorem Identified.cid_injective (env : Env) : Function.Injective (Identified.cid env) := by
  intro a b h
  rw [cid_eq, cid_eq] at h
  exact canonicalValue_injective (encodeCanonicalCbor_inj a.fits b.fits (cidFromBytes_inj h))

end Hsp
