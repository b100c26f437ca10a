import Hsp.Codec.Base64
import Hsp.Core.Env
import Hsp.Prog.Basic

/-!
# Cursors

A list cursor and an event cursor travel to the client as base64url of canonical CBOR.  Decoding
goes through the CBOR decoder of `Env`; if that reads the maps the encoder writes, a list cursor
comes back as it was sent (`ListCursor.decode_encode`).
-/

namespace Hsp

structure ListCursor where
  tenantId : TenantId
  ns : String
  pathPrefix : Option String
  snapshotRevision : ℕ
  lastPath : String
  deriving DecidableEq

structure EventCursor where
  tenantId : TenantId
  nextSeq : ℕ
  deriving DecidableEq

/-- The error of a cursor that cannot be read. -/
def invalidCursor (message : String) : ApiError := ⟨.validation, "invalid_cursor", message⟩

def cborKeyEq (value : CiboriumValue) (key : ℕ) : Bool :=
  match value with
  | .integer n => n == key
  | _ => false

/-- The value of the first entry with a key. -/
def cborEntry (entries : List (CiboriumValue × CiboriumValue)) (key : ℕ) : Option CiboriumValue :=
  (entries.find? fun e => cborKeyEq e.1 key).map Prod.snd

def requiredCborText (entries : List (CiboriumValue × CiboriumValue)) (key : ℕ) (field : String) :
    Except ApiError String :=
  match cborEntry entries key with
  | some (.text s) =>
    if s.isEmpty then throw (invalidCursor s!"cursor field {field} is missing or invalid")
    else pure s
  | _ => throw (invalidCursor s!"cursor field {field} is missing or invalid")

def optionalCborText (entries : List (CiboriumValue × CiboriumValue)) (key : ℕ) :
    Except ApiError (Option String) :=
  match cborEntry entries key with
  | some (.text s) => pure (some s)
  | some _ => throw (invalidCursor "cursor text field is invalid")
  | none => pure none

def requiredCborU64 (entries : List (CiboriumValue × CiboriumValue)) (key : ℕ) (field : String) :
    Except ApiError ℕ :=
  match cborEntry entries key with
  | some (.integer n) =>
    if 0 ≤ n ∧ n < 2 ^ 64 then pure n.toNat
    else throw (invalidCursor s!"cursor field {field} must be unsigned")
  | _ => throw (invalidCursor s!"cursor field {field} is missing or invalid")

/-- The entries of the CBOR map a cursor text stands for. -/
def cursorEntries (env : Env) (encoded : String) :
    Except ApiError (List (CiboriumValue × CiboriumValue)) :=
  match Base64.decode encoded with
  | none => throw (invalidCursor "cursor is not valid base64url data")
  | some bytes =>
    match env.valueFromReader bytes with
    | none => throw (invalidCursor "cursor is not valid CBOR")
    | some (.map entries) => pure entries
    | some _ => throw (invalidCursor "cursor payload must be a CBOR map")

/-- A number or a text. -/
def CanonicalValue.isScalar : CanonicalValue → Bool
  | .unsigned _ | .text _ => true
  | _ => false

/-- What the decoder makes of a number or a text. -/
def CanonicalValue.toCiborium : CanonicalValue → CiboriumValue
  | .unsigned n => .integer n.toNat
  | .text s => .text s
  | _ => .other

/-- The CBOR decoder reads maps of numbers and texts back. -/
def Env.ReadsMaps (env : Env) : Prop :=
  ∀ entries : List (UInt64 × CanonicalValue), (∀ e ∈ entries, e.2.isScalar) →
    (CanonicalValue.map entries).Fits →
    env.valueFromReader (encodeCanonicalCbor (.map entries)) =
      some (.map (entries.map fun e => (.integer e.1.toNat, e.2.toCiborium)))

section Fields

variable {env : Env} {entries : List (CiboriumValue × CiboriumValue)} {key : ℕ} {field : String}

theorem requiredCborText_of_entry {s : String} (h : cborEntry entries key = some (.text s))
    (hs : s ≠ "") : requiredCborText entries key field = .ok s := by
  rw [requiredCborText, h]
  dsimp only
  rw [if_neg (by simpa using hs)]
  rfl

theorem optionalCborText_of_entry {s : Option String} (h : cborEntry entries key = s.map .text) :
    optionalCborText entries key = .ok s := by
  rw [optionalCborText, h]
  cases s <;> rfl

theorem requiredCborU64_of_entry {n : ℕ} (h : cborEntry entries key = some (.integer n))
    (hn : n < 2 ^ 64) : requiredCborU64 entries key field = .ok n := by
  rw [requiredCborU64, h]
  dsimp only
  rw [if_pos ⟨Int.natCast_nonneg n, by exact_mod_cast hn⟩]
  rfl

theorem cursorEntries_encode (henv : env.ReadsMaps) {entries : List (UInt64 × CanonicalValue)}
    (hscalar : ∀ e ∈ entries, e.2.isScalar) (hfits : (CanonicalValue.map entries).Fits) :
    cursorEntries env (Base64.encode (encodeCanonicalCbor (.map entries))) =
      .ok (entries.map fun e => (.integer e.1.toNat, e.2.toCiborium)) := by
  rw [cursorEntries, Base64.decode_encode]
  dsimp only
  rw [henv entries hscalar hfits]
  rfl

end Fields

namespace ListCursor

def canonicalValue (c : ListCursor) : CanonicalValue :=
  .map ([(1, .text c.tenantId.val), (2, .text c.ns)] ++ optText 3 c.pathPrefix ++
    [(4, .unsigned (.ofNat c.snapshotRevision)), (5, .text c.lastPath)])

def encode (c : ListCursor) : String := Base64.encode (encodeCanonicalCbor c.canonicalValue)

def decode (env : Env) (encoded : String) : Except ApiError ListCursor := do
  let entries ← cursorEntries env encoded
  return {
    tenantId := ⟨← requiredCborText entries 1 "tenant_id"⟩
    ns := ← requiredCborText entries 2 "namespace"
    pathPrefix := ← optionalCborText entries 3
    snapshotRevision := ← requiredCborU64 entries 4 "snapshot_revision"
    lastPath := ← requiredCborText entries 5 "last_path" }

/-- What the decoder makes of a list cursor. -/
def decoded (c : ListCursor) : List (CiboriumValue × CiboriumValue) :=
  [(.integer 1, .text c.tenantId.val), (.integer 2, .text c.ns)] ++
    (c.pathPrefix.map fun p => (.integer 3, .text p)).toList ++
    [(.integer 4, .integer (UInt64.ofNat c.snapshotRevision).toNat), (.integer 5, .text c.lastPath)]

theorem cursorEntries_encode {env : Env} (henv : env.ReadsMaps) {c : ListCursor}
    (hfits : c.canonicalValue.Fits) : cursorEntries env c.encode = .ok c.decoded := by
  refine (Hsp.cursorEntries_encode henv ?_ hfits).trans ?_
  · cases c.pathPrefix <;> simp [optText, optField, CanonicalValue.isScalar]
  · unfold decoded
    cases c.pathPrefix <;> rfl

/-- **A list cursor reads back**, as the texts that must be present are not empty. -/
theorem decode_encode {env : Env} (henv : env.ReadsMaps) {c : ListCursor}
    (hfits : c.canonicalValue.Fits) (htenant : c.tenantId.val ≠ "") (hns : c.ns ≠ "")
    (hrevision : c.snapshotRevision < 2 ^ 64) (hlast : c.lastPath ≠ "") :
    decode env c.encode = .ok c := by
  have hrev : (UInt64.ofNat c.snapshotRevision).toNat = c.snapshotRevision := by
    rw [UInt64.toNat_ofNat', Nat.mod_eq_of_lt hrevision]
  have hentry₁ : cborEntry c.decoded 1 = some (.text c.tenantId.val) := rfl
  have hentry₂ : cborEntry c.decoded 2 = some (.text c.ns) := rfl
  have hentry₃ : cborEntry c.decoded 3 = c.pathPrefix.map .text := by
    unfold decoded
    cases c.pathPrefix <;> rfl
  have hentry₄ : cborEntry c.decoded 4 = some (.integer c.snapshotRevision) := by
    unfold decoded
    rw [hrev]
    cases c.pathPrefix <;> rfl
  have hentry₅ : cborEntry c.decoded 5 = some (.text c.lastPath) := by
    unfold decoded
    cases c.pathPrefix <;> rfl
  rw [decode, cursorEntries_encode henv hfits]
  simp only [except_ok_bind, requiredCborText_of_entry hentry₁ htenant,
    requiredCborText_of_entry hentry₂ hns, optionalCborText_of_entry hentry₃,
    requiredCborU64_of_entry hentry₄ hrevision, requiredCborText_of_entry hentry₅ hlast]
  rfl

end ListCursor

namespace EventCursor

def canonicalValue (c : EventCursor) : CanonicalValue :=
  .map [(1, .text c.tenantId.val), (2, .unsigned (.ofNat c.nextSeq))]

def encode (c : EventCursor) : String := Base64.encode (encodeCanonicalCbor c.canonicalValue)

def decode (env : Env) (encoded : String) : Except ApiError EventCursor := do
  let entries ← cursorEntries env encoded
  return {
    tenantId := ⟨← requiredCborText entries 1 "tenant_id"⟩
    nextSeq := ← requiredCborU64 entries 2 "next_seq" }

end EventCursor

end Hsp
